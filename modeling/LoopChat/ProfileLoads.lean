import LoopChat.LoginGate
import LoopChat.StoredProfiles

/-!
# The profile loads and their force operations

Four things have to hold for the loads and saves never to trap: somebody is signed in where
a uid is unwrapped, no load fails, every loaded document exists, and it has a string
`userName`. The last one always holds; the gate of the root screen gives the first.
-/
namespace LoopChat
open FirebaseValues NavigationWindow

namespace Device

variable {dev : Device} {t : Tap} {reaction : Reaction} {issuer : Option ℕ} {call : Call}

end Device

namespace AppSystem
open TransitionRuns

variable {normalise : String → String} {session : ℕ → Option String} {w w' : World} {a : Act}
  {as : List Act}

/-- The answers of the loads that were served can be decoded. -/
def LoadsDecode (requests : List Request) : Prop :=
  ∀ r ∈ requests, ∀ uid snapshot, r.call = .getDocument uid → r.answer = some (.snapshot snapshot) →
    ∃ user, decodeUser uid snapshot = .ok user

theorem LoadsDecode.append {requests new : List Request} (h : LoadsDecode requests)
    (hnew : ∀ r ∈ new, r.answer = none) : LoadsDecode (requests ++ new) := by
  intro r hr uid snapshot hcall hanswer
  rcases List.mem_append.mp hr with hr | hr
  · exact h r hr uid snapshot hcall hanswer
  · simp [hnew r hr] at hanswer

end AppSystem

end LoopChat
