import CoflowSim.Master.RunEnds
import CoflowSim.System.TraceSafety

namespace CoflowSim
open Lib

namespace Session

variable {coflows : List Coflow} {mm : MachineManager} {s : Session} {startTime : Int}
  {pools : List (ThreadPool Caller Job)} {acts : List SessionAction}

theorem Sound.returned_iff (sound : s.Sound coflows mm) :
    s.phase = .returned ↔ coflows ≠ [] ∧ coflows.length ≤ (logged s.master.reports).length := by
  rw [← sound.going, sound.tracks.returned_iff, loggedNum_eq, List.length_pos_iff]

section Results

variable {d : Deployment} {unset : CInt} {master : Scheduler}

end Results

end Session

end CoflowSim
