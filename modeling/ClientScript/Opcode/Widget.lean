import ClientScript.Opcode.Core

/-!
The operations on widgets. Each comes in two families, one for the selected component and one for a
component passed on the stack, at the same offset from the first code of the family.
-/

namespace ClientScript.OpcodeTable

/-- An operation of both families. The effect is that on the selected component. -/
structure WidgetRow where
  offset : Nat
  stem : Option String
  stack : StackEffect

def componentBase : Nat := 1000

def interfaceBase : Nat := 2000

def hook : StackEffect := ⟨[], [], .hook⟩

def widgetRows : List WidgetRow :=
  [⟨0, "SETPOSITION", fixed [i, i, i, i] []⟩,
   ⟨1, "SETSIZE", fixed [i, i, i, i] []⟩,
   ⟨3, "SETHIDE", fixed [i] []⟩,
   ⟨5, none, fixed [i] []⟩,
   ⟨6, none, fixed [i] []⟩,
   ⟨100, "SETSCROLLPOS", fixed [i, i] []⟩,
   ⟨101, "SETCOLOUR", fixed [i] []⟩,
   ⟨102, "SETFILL", fixed [i] []⟩,
   ⟨103, "SETTRANS", fixed [i] []⟩,
   ⟨104, "SETLINEWID", fixed [i] []⟩,
   ⟨105, "SETGRAPHIC", fixed [i] []⟩,
   ⟨106, "SET2DANGLE", fixed [i] []⟩,
   ⟨107, "SETTILING", fixed [i] []⟩,
   ⟨108, "SETMODEL", fixed [i] []⟩,
   ⟨109, "SETMODELANGLE", fixed [i, i, i, i, i, i] []⟩,
   ⟨110, "SETMODELANIM", fixed [i] []⟩,
   ⟨111, "SETMODELORTHOG", fixed [i] []⟩,
   ⟨112, "SETTEXT", fixed [s] []⟩,
   ⟨113, "SETTEXTFONT", fixed [i] []⟩,
   ⟨114, "SETTEXTALIGN", fixed [i, i, i] []⟩,
   ⟨115, "SETTEXTANTIMACRO", fixed [i] []⟩,
   ⟨116, "SETOUTLINE", fixed [i] []⟩,
   ⟨117, "SETGRAPHICSHADOW", fixed [i] []⟩,
   ⟨118, "SETVFLIP", fixed [i] []⟩,
   ⟨119, "SETHFLIP", fixed [i] []⟩,
   ⟨120, "SETSCROLLSIZE", fixed [i, i] []⟩,
   ⟨121, none, fixed [] []⟩,
   ⟨122, none, fixed [i] []⟩,
   ⟨123, none, fixed [i] []⟩,
   ⟨124, none, fixed [i] []⟩,
   ⟨125, none, fixed [i] []⟩,
   ⟨126, none, fixed [i] []⟩,
   ⟨127, none, fixed [i] []⟩,
   ⟨200, "SETOBJECT", fixed [i, i] []⟩,
   ⟨201, "SETNPCHEAD", fixed [i] []⟩,
   ⟨202, "SETPLAYERHEAD_SELF", fixed [] []⟩,
   ⟨205, "SETOBJECT_NONUM", fixed [i, i] []⟩,
   ⟨212, "SETOBJECT_ALWAYS_NUM", fixed [i, i] []⟩,
   ⟨300, "SETOP", fixed [i, s] []⟩,
   ⟨301, "SETDRAGGABLE", fixed [i, i] []⟩,
   ⟨302, "SETDRAGGABLEBEHAVIOR", fixed [i] []⟩,
   ⟨303, "SETDRAGDEADZONE", fixed [i] []⟩,
   ⟨304, "SETDRAGDEADTIME", fixed [i] []⟩,
   ⟨305, "SETOPBASE", fixed [s] []⟩,
   ⟨306, "SETTARGETVERB", fixed [s] []⟩,
   ⟨307, "CLEAROPS", fixed [] []⟩,
   ⟨400, "SETONCLICK", hook⟩,
   ⟨401, "SETONHOLD", hook⟩,
   ⟨402, "SETONRELEASE", hook⟩,
   ⟨403, "SETONMOUSEOVER", hook⟩,
   ⟨404, "SETONMOUSELEAVE", hook⟩,
   ⟨405, "SETONDRAG", hook⟩,
   ⟨406, "SETONTARGETLEAVE", hook⟩,
   ⟨407, "SETONVARTRANSMIT", hook⟩,
   ⟨408, "SETONTIME", hook⟩,
   ⟨409, "SETONTOP", hook⟩,
   ⟨410, "SETONDRAGCOMPLETE", hook⟩,
   ⟨411, "SETONCLICKREPEAT", hook⟩,
   ⟨412, "SETONMOUSEREPEAT", hook⟩,
   ⟨414, "SETONINVTRANSMIT", hook⟩,
   ⟨415, "SETONSTATTRANSMIT", hook⟩,
   ⟨416, "SETONTARGETENTER", hook⟩,
   ⟨417, "SETONSCROLLWHEEL", hook⟩,
   ⟨418, "SETONCHATTRANSMIT", hook⟩,
   ⟨419, "SETONKEY", hook⟩,
   ⟨420, none, hook⟩,
   ⟨421, none, hook⟩,
   ⟨422, none, hook⟩,
   ⟨423, none, hook⟩,
   ⟨424, none, hook⟩,
   ⟨425, none, hook⟩,
   ⟨426, none, hook⟩,
   ⟨427, none, hook⟩,
   ⟨500, "GETX", fixed [] [i]⟩,
   ⟨501, "GETY", fixed [] [i]⟩,
   ⟨502, "GETWIDTH", fixed [] [i]⟩,
   ⟨503, "GETHEIGHT", fixed [] [i]⟩,
   ⟨504, "GETHIDE", fixed [] [i]⟩,
   ⟨505, none, fixed [] [i]⟩,
   ⟨600, "GETSCROLLX", fixed [] [i]⟩,
   ⟨601, "GETSCROLLY", fixed [] [i]⟩,
   ⟨602, "GETTEXT", fixed [] [s]⟩,
   ⟨603, "GETSCROLLWIDTH", fixed [] [i]⟩,
   ⟨604, "GETSCROLLHEIGHT", fixed [] [i]⟩,
   ⟨605, "GETMODELZOOM", fixed [] [i]⟩,
   ⟨606, "GETMODELANGLE_X", fixed [] [i]⟩,
   ⟨607, "GETMODELANGLE_Z", fixed [] [i]⟩,
   ⟨608, "GETMODELANGLE_Y", fixed [] [i]⟩,
   ⟨609, "GETTRANS", fixed [] [i]⟩,
   ⟨610, none, fixed [] [i]⟩,
   ⟨611, none, fixed [] [i]⟩,
   ⟨612, none, fixed [] [i]⟩,
   ⟨613, none, fixed [] [i]⟩,
   ⟨614, none, fixed [] [i]⟩,
   ⟨700, "GETINVOBJECT", fixed [] [i]⟩,
   ⟨701, "GETINVCOUNT", fixed [] [i]⟩,
   ⟨702, "GETID", fixed [] [i]⟩,
   ⟨800, "GETTARGETMASK", fixed [] [i]⟩,
   ⟨801, "GETOP", fixed [i] [s]⟩,
   ⟨802, "GETOPBASE", fixed [] [s]⟩,
   ⟨927, none, .unknown⟩]

end ClientScript.OpcodeTable
