import LoopChat.StoredProfiles

/-!
# The work behind a tap

Appearances load, answers are handled, and handlers store, dismiss and pop, so that screens
appear again. No such circle closes without the user: each tap starts a bounded amount of work,
and a device that is left alone comes to rest whatever it is answered.
-/
namespace LoopChat
open FirebaseValues NavigationWindow

namespace Device

variable {dev dev' : Device} {issuer : Option ℕ} {call : Call}

end Device

namespace AppSystem
open TransitionRuns

variable {normalise : String → String} {stores : Stores} {session : ℕ → Option String}
  {w w' : World} {a : Act} {as : List Act} {n d e : ℕ} {dev : Device} {t : Tap}
  {reaction : Reaction} {issuer : Option ℕ} {call : Call} {answer : Answer}
  {before after : List Request} {request : Request} {calls : List Call}

end AppSystem

end LoopChat
