import Mathlib
import CoflowSim.Lib.Run

namespace Lib

universe u v
variable {σ : Type u} {α : Type v}

namespace Run

variable {step : σ → α → σ → Prop} {I goal : σ → Prop} {work : σ → Nat} {s t : σ} {acts : List α}

end Run

section Sums

variable {ι : Type u} {β : Type v}

end Sums

end Lib
