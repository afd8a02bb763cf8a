import LoopChat.FirebaseValues

/-!
# What a view controller asks for

A controller method is a function of the controller's own fields and of the signed-in
uid. It answers with the calls it makes on Firebase and on UIKit, in source order; the
systems built on top say what each call does. A completion handler is a function of the
answer and of what its closure captured.
-/
namespace LoopChat
open FirebaseValues

structure Message where
  senderName : String
  senderID : String
  messageBody : String
  deriving DecidableEq, Repr

structure Community where
  communityName : String
  communityID : String
  deriving DecidableEq, Repr

structure User where
  uid : String
  userName : String
  email : Option String
  deriving DecidableEq, Repr

/-- What a controller presents over itself. An alert has one OK button, the other kind
asks with Cancel and Yes. -/
inductive Modal
  | alert (title message : String)
  | confirm (title message : String)
  | forgetPassword
  deriving DecidableEq, Repr

inductive Call
  -- Realtime Database
  | observeCommunities
  | observeMessages (communityid : String)
  | setCommunity (dataArray : Fields)
  | setMessage (communityid : String) (dataArray : Fields)
  -- Firestore, collection Users
  | getDocument (uid : String)
  | setData (uid : String) (document : Fields)
  | updateData (uid : String) (fields : Fields)
  | deleteDocument (uid : String)
  -- Firebase Auth; the completion of `createUser` captured `userName`
  | createUser (email password userName : String)
  | signIn (email password : String)
  | updateEmail (uid email : String)
  | deleteUser (uid : String)
  | sendPasswordReset (email : String)
  | signOut
  -- UIKit
  | present (screen : Modal)
  | dismiss
  | popToRoot
  | showLogin
  | reloadData

/-- The force operations of the app; each one stops the process when it fails. -/
inductive Trap
  | currentUser
  | snapshot
  | data
  | userName
  deriving DecidableEq, Repr

/-- Swift's `x!` and `x as! T`. -/
def unwrap {α : Type*} (trap : Trap) : Option α → Except Trap α
  | some a => .ok a
  | none => .error trap

@[simp] theorem unwrap_some {α : Type*} (trap : Trap) (a : α) :
    unwrap trap (some a) = .ok a := rfl

@[simp] theorem unwrap_none {α : Type*} (trap : Trap) :
    unwrap trap (none : Option α) = .error trap := rfl

/-- The load shared by the chat and the profile screen: `currentUser?.uid` is unwrapped
and `Users/<uid>` is requested. -/
def loadUser (currentUser : Option String) : Except Trap (List Call) := do
  let userid ← unwrap .currentUser currentUser
  return [.getDocument userid]

/-- The completion shared by the two loads; its `error` parameter is never looked at. -/
def decodeUser (userid : String) (snapshot : Option Snapshot) : Except Trap User := do
  let data ← unwrap .snapshot snapshot
  let result ← unwrap .data data
  let userName ← unwrap .userName (result.string "userName")
  return { uid := userid, userName := userName, email := result.string "email" }

theorem loadUser_eq_ok {currentUser : Option String} {calls : List Call} :
    loadUser currentUser = .ok calls ↔
      ∃ userid, currentUser = some userid ∧ calls = [.getDocument userid] := by
  cases currentUser with
  | none => simp [loadUser, bind, Except.bind]
  | some userid => simp [loadUser, bind, Except.bind, pure, Except.pure, eq_comm]

theorem decodeUser_eq_ok {userid : String} {snapshot : Option Snapshot} {user : User} :
    decodeUser userid snapshot = .ok user ↔
      ∃ document userName, snapshot = some (some document) ∧
        document.string "userName" = some userName ∧
        user = ⟨userid, userName, document.string "email"⟩ := by
  rcases snapshot with _ | _ | document
  · simp [decodeUser, bind, Except.bind]
  · simp [decodeUser, bind, Except.bind]
  · cases h : document.string "userName" with
    | none => simp [decodeUser, bind, Except.bind, h]
    | some userName => simp [decodeUser, bind, Except.bind, pure, Except.pure, h, eq_comm]

end LoopChat
