import CoflowSim.System.ShapedSession

namespace CoflowSim
open Lib

namespace ShapedSession

variable {d : Deployment} {unset : CInt} {startTime : Int} {master : Scheduler} {listen : Nat → Nat}
  {pools : List (ThreadPool Caller Job)} {bandwidths : List Rat} {acts : List ShapedAction} {s : ShapedSession}

end ShapedSession

end CoflowSim
