import LoopChat.ControllerCalls

/-!
# ChatScreentVC

The writer `sendMessage` and the reader in `getMessage` name the three fields of a
message separately; `decodeMessage_dataArray` is the round trip between them.
-/
namespace LoopChat
open FirebaseValues

structure ChatScreentVC where
  messageArr : List Message := []
  community : Option Community := none
  userName1 : String := ""
  messageTextField : String := ""
  deriving DecidableEq, Repr

/-- The dictionary that `sendMessage` stores. -/
def dataArray (userName1 userid text : String) : Fields :=
  [("SenderName", .string userName1), ("SenderID", .string userid), ("messageBody", .string text)]

/-- The casts of the `childAdded` closure of `getMessage`. -/
def decodeMessage (value : Value) : Option Message := do
  let dataArray ← value.asDict
  let messagBody ← dataArray.string "messageBody"
  let userName ← dataArray.string "SenderName"
  let senderID ← dataArray.string "SenderID"
  return { senderName := userName, senderID := senderID, messageBody := messagBody }

@[simp] theorem decodeMessage_dataArray (userName1 userid text : String) :
    decodeMessage (.dict (dataArray userName1 userid text)) =
      some ⟨userName1, userid, text⟩ := rfl

theorem dataArray_inj {name name' userid userid' text text' : String} :
    dataArray name userid text = dataArray name' userid' text' ↔
      name = name' ∧ userid = userid' ∧ text = text' := by
  simp [dataArray]

/-- A child is read exactly when it is a dictionary with the three strings. -/
theorem decodeMessage_eq_some {value : Value} {message : Message} :
    decodeMessage value = some message ↔
      ∃ fields : Fields, value = .dict fields ∧
        fields.string "messageBody" = some message.messageBody ∧
        fields.string "SenderName" = some message.senderName ∧
        fields.string "SenderID" = some message.senderID := by
  obtain ⟨senderName, senderID, messageBody⟩ := message
  cases value with
  | dict fields =>
    simp only [decodeMessage, Value.asDict, Option.pure_def, Option.bind_eq_bind,
      Option.bind_some, Option.bind_eq_some_iff, Option.some.injEq, Message.mk.injEq,
      Value.dict.injEq]
    constructor
    · rintro ⟨_, hb, _, hn, _, hs, rfl, rfl, rfl⟩
      exact ⟨fields, rfl, hb, hn, hs⟩
    · rintro ⟨_, rfl, hb, hn, hs⟩
      exact ⟨_, hb, _, hn, _, hs, rfl, rfl, rfl⟩
  | null | bool | number | string | array => simp [decodeMessage, Value.asDict]

namespace ChatScreentVC

def sendMessage (vc : ChatScreentVC) (currentUser : Option String) (text : String) : List Call :=
  match currentUser with
  | none => []
  | some userid =>
    match vc.community with
    | none => []
    | some community =>
      [.setMessage community.communityID (dataArray vc.userName1 userid text)]

def sendMessageAction (vc : ChatScreentVC) (currentUser : Option String) : List Call :=
  if vc.messageTextField = "" then [] else vc.sendMessage currentUser vc.messageTextField

/-- The completion of `setValue`. -/
def sendMessageDone (vc : ChatScreentVC) (error : Bool) : ChatScreentVC :=
  if error then vc else { vc with messageTextField := "" }

def getMessage (vc : ChatScreentVC) : List Call :=
  match vc.community with
  | none => []
  | some community => [.observeMessages community.communityID]

/-- The `childAdded` closure registered by `getMessage`. -/
def childAdded (vc : ChatScreentVC) (value : Value) : ChatScreentVC × List Call :=
  match decodeMessage value with
  | none => (vc, [])
  | some message => ({ vc with messageArr := vc.messageArr ++ [message] }, [.reloadData])

def userNameFunction (currentUser : Option String) : Except Trap (List Call) :=
  loadUser currentUser

/-- The completion of `userNameFunction`. -/
def userNameAnswer (vc : ChatScreentVC) (userid : String) (snapshot : Option Snapshot) :
    Except Trap ChatScreentVC := do
  let user ← decodeUser userid snapshot
  return { vc with userName1 := user.userName }

def viewDidAppear (vc : ChatScreentVC) (currentUser : Option String) :
    Except Trap (List Call) := do
  let calls ← userNameFunction currentUser
  return calls ++ vc.getMessage

theorem sendMessageAction_eq_singleton {vc : ChatScreentVC} {currentUser : Option String}
    {call : Call} : vc.sendMessageAction currentUser = [call] ↔
      ∃ userid community, currentUser = some userid ∧ vc.community = some community ∧
        vc.messageTextField ≠ "" ∧ call = .setMessage community.communityID
          (dataArray vc.userName1 userid vc.messageTextField) := by
  unfold sendMessageAction sendMessage
  split_ifs with ht
  · simp [ht]
  · cases currentUser <;> cases vc.community <;> simp [ht, eq_comm]

theorem sendMessageAction_cases (vc : ChatScreentVC) (currentUser : Option String) :
    vc.sendMessageAction currentUser = [] ∨
      ∃ call, vc.sendMessageAction currentUser = [call] := by
  unfold sendMessageAction sendMessage
  split_ifs
  · exact Or.inl rfl
  · cases currentUser <;> cases vc.community <;> simp

theorem viewDidAppear_eq_ok {vc : ChatScreentVC} {currentUser : Option String}
    {calls : List Call} : vc.viewDidAppear currentUser = .ok calls ↔
      ∃ userid, currentUser = some userid ∧ calls = .getDocument userid :: vc.getMessage := by
  cases currentUser <;>
    simp [viewDidAppear, userNameFunction, loadUser, bind, Except.bind, pure, Except.pure, eq_comm]

theorem childAdded_messageArr (vc : ChatScreentVC) (value : Value) :
    (vc.childAdded value).1.messageArr = vc.messageArr ++ (decodeMessage value).toList := by
  unfold childAdded
  cases decodeMessage value <;> simp

@[simp] theorem childAdded_community (vc : ChatScreentVC) (value : Value) :
    (vc.childAdded value).1.community = vc.community := by
  unfold childAdded
  cases decodeMessage value <;> rfl

@[simp] theorem childAdded_userName1 (vc : ChatScreentVC) (value : Value) :
    (vc.childAdded value).1.userName1 = vc.userName1 := by
  unfold childAdded
  cases decodeMessage value <;> rfl

theorem userNameAnswer_eq_ok {vc vc' : ChatScreentVC} {userid : String}
    {snapshot : Option Snapshot} : vc.userNameAnswer userid snapshot = .ok vc' ↔
      ∃ user, decodeUser userid snapshot = .ok user ∧
        vc' = { vc with userName1 := user.userName } := by
  unfold userNameAnswer
  cases decodeUser userid snapshot <;>
    simp [bind, Except.bind, pure, Except.pure, eq_comm]

end ChatScreentVC

end LoopChat
