import LoopChat.ControllerCalls

/-!
# UserProfileVC and SettignScreenVC

The profile form, the deletion of the account behind its Confirm alert, and the log-out
button. Both controllers leave by popping to the root screen, which decides there whether
the login screen is due.
-/
namespace LoopChat
open FirebaseValues

structure UserProfileVC where
  profileUserName : String := ""
  profileEmail : String := ""
  deriving DecidableEq, Repr

namespace UserProfileVC

def deleteAccount : List Call :=
  [.present (.confirm "Confirm" "Are you sure you want to delete this Account?")]

/-- The handler of the Yes button. `user?.delete` comes after `userid!`, so the optional
chain never meets a nil there. -/
def deleteAccountYes (currentUser : Option String) : Except Trap (List Call) := do
  let userid ← unwrap .currentUser currentUser
  return [.deleteDocument userid, .deleteUser userid]

def presentLoginScreen : List Call := [.popToRoot]

/-- The completion of `user.delete`. -/
def deleteUserDone (error : Bool) : List Call := if error then [] else presentLoginScreen

/-- The fields that `update` writes. -/
def updateFields (profileUserName profileEmail : String) : Fields :=
  [("userName", .string profileUserName), ("email", .string profileEmail)]

def update (vc : UserProfileVC) (currentUser : Option String) : Except Trap (List Call) := do
  let userID ← unwrap .currentUser currentUser
  return [.updateData userID (updateFields vc.profileUserName vc.profileEmail),
    .updateEmail userID vc.profileEmail]

def getUserData (currentUser : Option String) : Except Trap (List Call) := loadUser currentUser

def viewDidAppear (currentUser : Option String) : Except Trap (List Call) :=
  getUserData currentUser

/-- A text field that is given nil shows the empty text. -/
def showUser (vc : UserProfileVC) (user : User) : UserProfileVC :=
  { vc with profileUserName := user.userName, profileEmail := user.email.getD "" }

/-- The completion of `getUserData`. -/
def getUserDataAnswer (vc : UserProfileVC) (userID : String) (snapshot : Option Snapshot) :
    Except Trap UserProfileVC := do
  let user ← decodeUser userID snapshot
  return vc.showUser user

theorem update_eq_ok {vc : UserProfileVC} {currentUser : Option String} {calls : List Call} :
    vc.update currentUser = .ok calls ↔ ∃ userID, currentUser = some userID ∧
      calls = [.updateData userID (updateFields vc.profileUserName vc.profileEmail),
        .updateEmail userID vc.profileEmail] := by
  cases currentUser <;> simp [update, bind, Except.bind, pure, Except.pure, eq_comm]

theorem deleteAccountYes_eq_ok {currentUser : Option String} {calls : List Call} :
    deleteAccountYes currentUser = .ok calls ↔ ∃ userid, currentUser = some userid ∧
      calls = [.deleteDocument userid, .deleteUser userid] := by
  cases currentUser <;> simp [deleteAccountYes, bind, Except.bind, pure, Except.pure, eq_comm]

theorem getUserDataAnswer_eq_ok {vc vc' : UserProfileVC} {userID : String}
    {snapshot : Option Snapshot} : vc.getUserDataAnswer userID snapshot = .ok vc' ↔
      ∃ user, decodeUser userID snapshot = .ok user ∧ vc' = vc.showUser user := by
  unfold getUserDataAnswer
  cases decodeUser userID snapshot <;> simp [bind, Except.bind, pure, Except.pure, eq_comm]

end UserProfileVC

namespace SettignScreenVC

def presentLoginScreen : List Call := [.popToRoot]

def logoutButton : List Call := .signOut :: presentLoginScreen

end SettignScreenVC

end LoopChat
