import ClientScript.Opcode.Core

/-!
Operations known by their code only. The length of their operand is assumed, its meaning is not
known; of some the effect on the stacks has been observed.
-/

namespace ClientScript.OpcodeTable

/-- The codes as ascending ranges, both ends included. -/
def unnamedRanges : List (Nat × Nat) :=
  [(3100, 3101), (3103, 3113), (3115, 3139), (3200, 3202), (3300, 3318), (3321, 3325), (3400, 3400),
   (3411, 3411), (3600, 3609), (3611, 3657), (4207, 4212), (5000, 5005), (5008, 5009), (5015, 5022),
   (5306, 5309), (5504, 5506), (5530, 5531), (5630, 5630), (6200, 6205), (6500, 6502), (6506, 6507),
   (6511, 6516), (6518, 6526), (6600, 6640), (6693, 6699)]

def observedEffects : List (Nat × StackEffect) :=
  [(3100, fixed [i] []), (3101, fixed [i, i] []), (3103, fixed [] []), (3104, fixed [s] []),
   (3105, fixed [s] []), (3106, fixed [s] []), (3107, fixed [i, s] []), (3108, fixed [i, i, i] []),
   (3109, fixed [i, i] []), (3110, fixed [i] []), (3111, fixed [] [i]), (3112, fixed [i] []),
   (3113, fixed [s, i] []), (3115, fixed [i] []), (3116, fixed [i, s, s] []), (3117, fixed [i] []),
   (3118, fixed [i] []), (3119, fixed [i] []), (3120, fixed [i] []), (3121, fixed [i] []),
   (3122, fixed [i] []), (3123, fixed [i] []), (3124, fixed [] []), (3125, fixed [i] []),
   (3126, fixed [i] []), (3127, fixed [i] []), (3128, fixed [] [i]), (3129, fixed [i, i] []),
   (3130, fixed [i, i] []), (3131, fixed [i] []), (3132, fixed [] [i, i]), (3133, fixed [i] []),
   (3134, fixed [] []), (3135, fixed [i, i] []), (3136, fixed [i] []), (3137, fixed [] [i]),
   (3138, fixed [i] []), (3139, fixed [] [i]), (3200, fixed [i, i, i] []), (3201, fixed [i] []),
   (3202, fixed [i, i] []), (3300, fixed [] [i]), (3301, fixed [i, i] [i]),
   (3302, fixed [i, i] [i]), (3303, fixed [i, i] [i]), (3304, fixed [i] [i]), (3305, fixed [i] [i]),
   (3306, fixed [i] [i]), (3307, fixed [i] [i]), (3308, fixed [] [i]), (3309, fixed [i] [i]),
   (3310, fixed [i] [i]), (3311, fixed [i] [i]), (3312, fixed [] [i]), (3313, fixed [i, i] [i]),
   (3314, fixed [i, i] [i]), (3315, fixed [i, i] [i]), (3316, fixed [] [i]), (3317, fixed [] [i]),
   (3318, fixed [] [i]), (3321, fixed [] [i]), (3322, fixed [] [i]), (3323, fixed [] [i]),
   (3324, fixed [] [i]), (3325, fixed [i, i, i, i] [i]), (3400, fixed [i, i] [s]),
   (3411, fixed [i] [i]), (3600, fixed [] [i]), (3601, fixed [i] [s, s]), (3602, fixed [i] [i]),
   (3603, fixed [i] [i]), (3604, fixed [s] [i]), (3605, fixed [s] []), (3606, fixed [s] []),
   (3607, fixed [s] []), (3608, fixed [s] []), (3609, fixed [s] [i]), (3611, fixed [] [s]),
   (3612, fixed [] [i]), (3614, fixed [i] [s]), (3615, fixed [i] [i]), (3616, fixed [] [i]),
   (3617, fixed [s] []), (3618, fixed [] [i]), (3619, fixed [s] []), (3620, fixed [] []),
   (3621, fixed [] [i]), (3622, fixed [i] [s, s]), (3623, fixed [s] [i]), (3624, fixed [i] [i]),
   (3625, fixed [] [s]), (3626, fixed [i] [i]), (3627, fixed [i] [i]), (3628, fixed [] []),
   (3629, fixed [i] []), (3630, fixed [i] []), (3631, fixed [i] []), (3632, fixed [i] []),
   (3633, fixed [i] []), (3634, fixed [i] []), (3635, fixed [i] []), (3636, fixed [i] []),
   (3637, fixed [i] []), (3638, fixed [i] []), (3639, fixed [] []), (3640, fixed [] []),
   (3641, fixed [i] []), (3642, fixed [i] []), (3643, fixed [] []), (3644, fixed [] []),
   (3645, fixed [i] []), (3646, fixed [i] []), (3647, fixed [i] []), (3648, fixed [i] []),
   (3649, fixed [i] []), (3650, fixed [i] []), (3651, fixed [i] []), (3652, fixed [i] []),
   (3653, fixed [i] []), (3654, fixed [i] []), (3655, fixed [] []), (3656, fixed [i] []),
   (3657, fixed [i] []), (4207, fixed [i] [i]), (5000, fixed [] [i]),
   (5003, fixed [i, i] [i, i, i, s, s, s]), (5004, fixed [i] [i, i, i, s, s, s]),
   (5005, fixed [] [i]), (5015, fixed [] [s]), (5016, fixed [] [i]), (5017, fixed [i] [i]),
   (5019, fixed [i] [i]), (5022, fixed [] [s]), (5306, fixed [] [i]), (5307, fixed [i] []),
   (5308, fixed [] [i]), (5309, fixed [i] []), (6518, fixed [] [i])]

end ClientScript.OpcodeTable
