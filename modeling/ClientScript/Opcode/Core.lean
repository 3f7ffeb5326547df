import ClientScript.Shape

/-!
The operations outside the widget families.
-/

namespace ClientScript.OpcodeTable

/-- An operation. One without a name is known by its code only. -/
structure CoreRow where
  code : Nat
  name : Option String
  shape : Shape
  stack : StackEffect
  flow : Flow

def fixed (pops pushes : List Kind) : StackEffect := ⟨pops, pushes, .fixed⟩

abbrev i : Kind := .int

abbrev s : Kind := .string

def coreRows : List CoreRow :=
  [⟨0, "PUSH_CONSTANT_INT", .int, fixed [] [i], .sequential⟩,
   ⟨1, "PUSH_VAR", .int, fixed [] [i], .sequential⟩,
   ⟨2, "POP_VAR", .int, fixed [i] [], .sequential⟩,
   ⟨3, "PUSH_CONSTANT_STRING", .string, fixed [] [s], .sequential⟩,
   ⟨6, "BRANCH", .int, fixed [] [], .branch⟩,
   ⟨7, "BRANCH_NOT", .int, fixed [i, i] [], .condBranch⟩,
   ⟨8, "BRANCH_EQUALS", .int, fixed [i, i] [], .condBranch⟩,
   ⟨9, "BRANCH_LESS_THAN", .int, fixed [i, i] [], .condBranch⟩,
   ⟨10, "BRANCH_GREATER_THAN", .int, fixed [i, i] [], .condBranch⟩,
   ⟨21, "RETURN", .byte, ⟨[], [], .popAll⟩, .ret⟩,
   ⟨25, "PUSH_VARBIT", .int, fixed [] [i], .sequential⟩,
   ⟨27, "POP_VARBIT", .int, fixed [i] [], .sequential⟩,
   ⟨31, "BRANCH_LESS_THAN_OR_EQUALS", .int, fixed [i, i] [], .condBranch⟩,
   ⟨32, "BRANCH_GREATER_THAN_OR_EQUALS", .int, fixed [i, i] [], .condBranch⟩,
   ⟨33, "PUSH_INT_LOCAL", .slot .int, fixed [] [i], .sequential⟩,
   ⟨34, "POP_INT_LOCAL", .slot .int, fixed [i] [], .sequential⟩,
   ⟨35, "PUSH_STRING_LOCAL", .slot .string, fixed [] [s], .sequential⟩,
   ⟨36, "POP_STRING_LOCAL", .slot .string, fixed [s] [], .sequential⟩,
   ⟨37, "JOIN_STRING", .int, ⟨[s], [s], .operandCount⟩, .sequential⟩,
   ⟨38, "POP_INT_DISCARD", .byte, fixed [i] [], .sequential⟩,
   ⟨39, "POP_STRING_DISCARD", .byte, fixed [s] [], .sequential⟩,
   ⟨40, "GOSUB_WITH_PARAMS", .int, ⟨[], [], .call⟩, .call⟩,
   ⟨42, none, .int, fixed [] [i], .sequential⟩,
   ⟨43, none, .int, fixed [i] [], .sequential⟩,
   ⟨44, "DEFINE_ARRAY", .int, fixed [i] [], .sequential⟩,
   ⟨45, "PUSH_ARRAY_INT", .int, fixed [i] [i], .sequential⟩,
   ⟨46, "POP_ARRAY_INT", .int, fixed [i, i] [], .sequential⟩,
   ⟨47, none, .int, fixed [] [s], .sequential⟩,
   ⟨48, none, .int, fixed [s] [], .sequential⟩,
   ⟨60, "SWITCH", .switch, fixed [i] [], .switch⟩,
   ⟨100, "CC_CREATE", .byte, fixed [i, i, i] [], .sequential⟩,
   ⟨101, "CC_DELETE", .byte, fixed [] [], .sequential⟩,
   ⟨102, "CC_DELETEALL", .byte, fixed [i] [], .sequential⟩,
   ⟨200, none, .byte, fixed [i, i] [i], .sequential⟩,
   ⟨201, none, .byte, fixed [i] [i], .sequential⟩,
   ⟨2706, none, .byte, fixed [] [i], .sequential⟩,
   ⟨3408, "ENUM", .byte, ⟨[i, i, i, i], [], .enum⟩, .sequential⟩,
   ⟨4000, "ADD", .byte, fixed [i, i] [i], .sequential⟩,
   ⟨4001, "SUB", .byte, fixed [i, i] [i], .sequential⟩,
   ⟨4002, "MULTIPLY", .byte, fixed [i, i] [i], .sequential⟩,
   ⟨4003, "DIV", .byte, fixed [i, i] [i], .sequential⟩,
   ⟨4004, "RANDOM", .byte, fixed [i] [i], .sequential⟩,
   ⟨4005, "RANDOMINC", .byte, fixed [i] [i], .sequential⟩,
   ⟨4006, "INTERPOLATE", .byte, fixed [i, i, i, i, i] [i], .sequential⟩,
   ⟨4007, "ADDPERCENT", .byte, fixed [i, i] [i], .sequential⟩,
   ⟨4008, "SETBIT", .byte, fixed [i, i] [i], .sequential⟩,
   ⟨4009, "CLEARBIT", .byte, fixed [i, i] [i], .sequential⟩,
   ⟨4010, "TESTBIT", .byte, fixed [i, i] [i], .sequential⟩,
   ⟨4011, "MOD", .byte, fixed [i, i] [i], .sequential⟩,
   ⟨4012, "POW", .byte, fixed [i, i] [i], .sequential⟩,
   ⟨4013, "INVPOW", .byte, fixed [i, i] [i], .sequential⟩,
   ⟨4014, "AND", .byte, fixed [i, i] [i], .sequential⟩,
   ⟨4015, "OR", .byte, fixed [i, i] [i], .sequential⟩,
   ⟨4018, "SCALE", .byte, fixed [i, i, i] [i], .sequential⟩,
   ⟨4100, "APPEND_NUM", .byte, fixed [s, i] [s], .sequential⟩,
   ⟨4101, "APPEND", .byte, fixed [s, s] [s], .sequential⟩,
   ⟨4102, "APPEND_SIGNUM", .byte, fixed [s, i] [s], .sequential⟩,
   ⟨4103, "LOWERCASE", .byte, fixed [s] [s], .sequential⟩,
   ⟨4104, "FROMDATE", .byte, fixed [i] [s], .sequential⟩,
   ⟨4105, "TEXT_GENDER", .byte, fixed [s, s] [s], .sequential⟩,
   ⟨4106, "TOSTRING", .byte, fixed [i] [s], .sequential⟩,
   ⟨4107, "COMPARE", .byte, fixed [s, s, i] [i], .sequential⟩,
   ⟨4108, "PARAHEIGHT", .byte, fixed [i, i] [i], .sequential⟩,
   ⟨4109, "PARAWIDTH", .byte, fixed [i, i] [i], .sequential⟩,
   ⟨4110, "TEXT_SWITCH", .byte, fixed [s, s, i] [s], .sequential⟩,
   ⟨4111, "ESCAPE", .byte, fixed [s] [s], .sequential⟩,
   ⟨4112, "APPEND_CHAR", .byte, fixed [s, i] [s], .sequential⟩,
   ⟨4113, "CHAR_ISPRINTABLE", .byte, fixed [i] [i], .sequential⟩,
   ⟨4114, "CHAR_ISALPHANUMERIC", .byte, fixed [i] [i], .sequential⟩,
   ⟨4115, "CHAR_ISALPHA", .byte, fixed [i] [i], .sequential⟩,
   ⟨4116, "CHAR_ISNUMERIC", .byte, fixed [i] [i], .sequential⟩,
   ⟨4117, "STRING_LENGTH", .byte, fixed [s] [i], .sequential⟩,
   ⟨4118, "SUBSTRING", .byte, fixed [s, i, i] [s], .sequential⟩,
   ⟨4119, "REMOVETAGS", .byte, fixed [s] [s], .sequential⟩,
   ⟨4120, "STRING_INDEXOF_CHAR", .byte, fixed [s, i] [i], .sequential⟩,
   ⟨4121, "STRING_INDEXOF_STRING", .byte, fixed [s, s] [i], .sequential⟩,
   ⟨4200, "OC_NAME", .byte, fixed [i] [s], .sequential⟩,
   ⟨4201, "OC_OP", .byte, fixed [i, i] [s], .sequential⟩,
   ⟨4202, "OC_IOP", .byte, fixed [i, i] [s], .sequential⟩,
   ⟨4203, "OC_COST", .byte, fixed [i] [i], .sequential⟩,
   ⟨4204, "OC_STACKABLE", .byte, fixed [i] [i], .sequential⟩,
   ⟨4205, "OC_CERT", .byte, fixed [i] [i], .sequential⟩,
   ⟨4206, "OC_UNCERT", .byte, fixed [i] [i], .sequential⟩]

end ClientScript.OpcodeTable
