import LoopChat.ControllerCalls

/-!
# SignupAndLoginVC and ForgetPasswordVC

The buttons read their text fields at the tap, so the texts are arguments here. A sign-up
writes the user's document only in the completion of a successful `createUser`.
-/
namespace LoopChat
open FirebaseValues

namespace SignupAndLoginVC

def showError (errorView : String) : List Call := [.present (.alert "Error" errorView)]

def forgetPasswordAction : List Call := [.present .forgetPassword]

/-- Swift's `==` and `!=` are canonical equivalence. Against the empty text this is equality; two
passwords are taken in one Unicode normal form, where it is equality as well. -/
def signupButtonAction (email password confirmPassword userName : String) : List Call :=
  if email = "" ∨ password = "" then showError "can not be Empty"
  else if password ≠ confirmPassword then showError "The passwords is not match"
  else [.createUser email password userName]

/-- The document that a sign-up stores. -/
def userDocument (userName email userID : String) : Fields :=
  [("userName", .string userName), ("email", .string email), ("userID", .string userID)]

/-- The completion of `createUser`; `result` is nil exactly when there is an error. -/
def createUserDone (email userName : String) (result : Option String) : List Call :=
  match result with
  | none => []
  | some userID => [.setData userID (userDocument userName email userID), .dismiss]

def loginButtonAction (email password : String) : List Call :=
  if password = "" then showError "can not be Empty" else [.signIn email password]

/-- The completion of `signIn`. -/
def signInDone (error : Bool) : List Call :=
  if error then showError "User name or Password is wrong" else [.dismiss]

theorem signupButtonAction_cases (email password confirmPassword userName : String) :
    (∃ errorView,
      signupButtonAction email password confirmPassword userName = showError errorView) ∨
    signupButtonAction email password confirmPassword userName =
      [.createUser email password userName] := by
  unfold signupButtonAction
  split_ifs
  · exact Or.inl ⟨_, rfl⟩
  · exact Or.inl ⟨_, rfl⟩
  · exact Or.inr rfl

theorem loginButtonAction_cases (email password : String) :
    (∃ errorView, loginButtonAction email password = showError errorView) ∨
      loginButtonAction email password = [.signIn email password] := by
  unfold loginButtonAction
  split_ifs
  · exact Or.inl ⟨_, rfl⟩
  · exact Or.inr rfl

end SignupAndLoginVC

structure ForgetPasswordVC where
  userEmail : String := ""
  deriving DecidableEq, Repr

namespace ForgetPasswordVC

def showMessage (errorView : String) : List Call := [.present (.alert "Message" errorView)]

def sendRestPasswordLink (vc : ForgetPasswordVC) : List Call :=
  if vc.userEmail ≠ "" then [.sendPasswordReset vc.userEmail] else showMessage "Connot be Emapty"

/-- The completion of `sendPasswordReset`. -/
def sendPasswordResetDone (vc : ForgetPasswordVC) (error : Bool) : ForgetPasswordVC × List Call :=
  if error then (vc, showMessage "email does not exist")
  else ({ vc with userEmail := "" }, showMessage "check your Email")

end ForgetPasswordVC

end LoopChat
