import LoopChat.NavigationWindow
import LoopChat.BackendStores
import LoopChat.ChatScreen
import LoopChat.CommunityScreen
import LoopChat.LoginScreen
import LoopChat.ProfileScreen

/-!
# One device: the signed-in user and the window

What the user can touch, what appears, and what the completion handlers do. Each of these
is a reaction of one controller: its own change of the device and the calls it makes. The
messages and the list of communities are the matter of the other two systems.
-/
namespace LoopChat
open FirebaseValues NavigationWindow

/-- What is pushed over CommunityVC. -/
inductive Screen
  | settings
  | profile (vc : UserProfileVC)
  | createCommunity
  | chat (vc : ChatScreentVC)
  deriving DecidableEq, Repr

/-- What is presented over the stack; SignupAndLoginVC covers the full screen. -/
inductive Cover
  | login
  | alert (title message : String)
  | confirm (title message : String)
  | forgetPassword (vc : ForgetPasswordVC)
  deriving DecidableEq, Repr

def Modal.cover : Modal → Cover
  | .alert title message => .alert title message
  | .confirm title message => .confirm title message
  | .forgetPassword => .forgetPassword {}

def Cover.hides : Cover → Bool
  | .login => true
  | _ => false

def Cover.setForgetPassword (vc : ForgetPasswordVC) : Cover → Cover
  | .forgetPassword _ => .forgetPassword vc
  | cover => cover

structure Device where
  currentUser : Option String
  window : Window Screen Cover := {}
  trapped : Option Trap := none
  deriving DecidableEq, Repr

/-- What a controller method does: its own change of the device, then its calls. -/
structure Reaction where
  device : Device
  issuer : Option ℕ
  calls : Except Trap (List Call)

inductive Tap
  -- CommunityVC
  | showSettings
  | showCreateCommunity
  | didSelectItemAt (community : Community)
  -- the navigation bar
  | back
  | cancelledBack
  -- SettignScreenVC
  | showProfile
  | logoutButton
  -- UserProfileVC and its Confirm alert
  | editUserName (text : String)
  | editEmail (text : String)
  | updateUserInfo
  | deleteUserAccount
  | cancel
  | yes
  -- SignupAndLoginVC and its alerts
  | loginButtonAction (email password : String)
  | signupButtonAction (email password confirmPassword userName : String)
  | forgetPasswordAction
  | ok
  -- ForgetPasswordVC
  | editResetEmail (text : String)
  | sendRestPasswordLink
  | close
  deriving DecidableEq, Repr

/-- Firebase requests; the observers and writes of the Realtime Database are elsewhere. -/
def Call.isRequest : Call → Bool
  | .getDocument _ | .setData _ _ | .updateData _ _ | .deleteDocument _ => true
  | .createUser _ _ _ | .signIn _ _ | .updateEmail _ _ | .deleteUser _ => true
  | .sendPasswordReset _ => true
  | _ => false

def Answer.isError : Answer → Bool
  | .failed => true
  | _ => false

def Answer.uid : Answer → Option String
  | .user uid => some uid
  | _ => none

/-- The answer reports that a user was signed in. -/
def Call.authenticates : Call → Answer → Bool
  | .createUser _ _ _, .user _ => true
  | .signIn _ _, .user _ => true
  | _, _ => false

/-- The answer reports that the account was deleted. -/
def Call.deletesUser : Call → Answer → Bool
  | .deleteUser _, .done => true
  | _, _ => false

namespace Device

def launched (currentUser : Option String) : Device := { currentUser := currentUser }

def setWindow (dev : Device) (window : Window Screen Cover) : Device :=
  { dev with window := window }

def LoginPresented (dev : Device) : Prop := dev.window.Covered (· = .login)

/-- A call on UIKit or a log-out, made by the controller `issuer`. -/
def perform (issuer : Option ℕ) (dev : Device) : Call → Device
  | .signOut => { dev with currentUser := none }
  | .popToRoot => dev.setWindow (dev.window.popToRoot issuer)
  | .dismiss => dev.setWindow (dev.window.dismiss Cover.hides issuer)
  | .present screen => dev.setWindow (dev.window.present issuer screen.cover)
  | .showLogin => dev.setWindow (dev.window.presentOnRoot .login)
  | _ => dev

/-- A tap on the navigation stack. -/
def tapScreen (dev : Device) (tap : Tap) : Option Reaction :=
  match dev.window.stack, tap with
  | [], .showSettings =>
    some ⟨dev.setWindow (dev.window.push .settings), none, .ok []⟩
  | [], .showCreateCommunity =>
    some ⟨dev.setWindow (dev.window.push .createCommunity), none, .ok []⟩
  | [], .didSelectItemAt community =>
    some ⟨dev.setWindow (dev.window.push (.chat { community := some community })), none,
      .ok []⟩
  | ⟨id, .settings⟩ :: _, .showProfile =>
    some ⟨dev.setWindow (dev.window.push (.profile {})), some id, .ok []⟩
  | ⟨id, .settings⟩ :: _, .logoutButton => some ⟨dev, some id, .ok SettignScreenVC.logoutButton⟩
  | ⟨id, .profile vc⟩ :: _, .editUserName text =>
    some ⟨dev.setWindow (dev.window.modifyScreen (some id)
      fun _ => .profile { vc with profileUserName := text }), some id, .ok []⟩
  | ⟨id, .profile vc⟩ :: _, .editEmail text =>
    some ⟨dev.setWindow (dev.window.modifyScreen (some id)
      fun _ => .profile { vc with profileEmail := text }), some id, .ok []⟩
  | ⟨id, .profile vc⟩ :: _, .updateUserInfo => some ⟨dev, some id, vc.update dev.currentUser⟩
  | ⟨id, .profile _⟩ :: _, .deleteUserAccount =>
    some ⟨dev, some id, .ok UserProfileVC.deleteAccount⟩
  | ⟨id, _⟩ :: _, .back => some ⟨dev.setWindow dev.window.pop, some id, .ok []⟩
  | ⟨id, _⟩ :: _, .cancelledBack =>
    some ⟨dev.setWindow dev.window.reappear, some id, .ok []⟩
  | _, _ => none

def dismissed (dev : Device) (cover : Presented Cover) : Device :=
  dev.setWindow (dev.window.dismiss Cover.hides (some cover.id))

/-- A tap on the topmost presented controller. -/
def tapCover (dev : Device) (cover : Presented Cover) (tap : Tap) : Option Reaction :=
  match cover.content, tap with
  | .confirm _ _, .cancel => some ⟨dev.dismissed cover, cover.presenter, .ok []⟩
  | .confirm _ _, .yes => some ⟨dev.dismissed cover, cover.presenter,
      UserProfileVC.deleteAccountYes dev.currentUser⟩
  | .alert _ _, .ok => some ⟨dev.dismissed cover, cover.presenter, .ok []⟩
  | .login, .loginButtonAction email password =>
    some ⟨dev, some cover.id, .ok (SignupAndLoginVC.loginButtonAction email password)⟩
  | .login, .signupButtonAction email password confirmPassword userName =>
    some ⟨dev, some cover.id,
      .ok (SignupAndLoginVC.signupButtonAction email password confirmPassword userName)⟩
  | .login, .forgetPasswordAction =>
    some ⟨dev, some cover.id, .ok SignupAndLoginVC.forgetPasswordAction⟩
  | .forgetPassword _, .editResetEmail text =>
    some ⟨dev.setWindow (dev.window.modifyCover (some cover.id)
      (Cover.setForgetPassword { userEmail := text })), some cover.id, .ok []⟩
  | .forgetPassword vc, .sendRestPasswordLink =>
    some ⟨dev, some cover.id, .ok vc.sendRestPasswordLink⟩
  | .forgetPassword _, .close => some ⟨dev.dismissed cover, cover.presenter, .ok []⟩
  | _, _ => none

/-- A tap lands on the topmost controller; during a transition the stack takes none. -/
def tap (dev : Device) (tap : Tap) : Option Reaction :=
  if dev.trapped.isSome then none
  else match dev.window.covers with
    | [] => if dev.window.appearing then none else dev.tapScreen tap
    | cover :: _ => dev.tapCover cover tap

/-- The calls of `viewDidAppear` of the visible screen, with its number. -/
def appearance (dev : Device) : Option ℕ × Except Trap (List Call) :=
  match dev.window.stack with
  | [] => (none, .ok (({} : CommunityVC).viewDidAppear dev.currentUser).2)
  | ⟨id, .profile _⟩ :: _ => (some id, UserProfileVC.viewDidAppear dev.currentUser)
  | ⟨id, .chat vc⟩ :: _ => (some id, vc.viewDidAppear dev.currentUser)
  | ⟨id, _⟩ :: _ => (some id, .ok [])

def viewDidAppear (dev : Device) : Option Reaction :=
  if dev.trapped.isSome ∨ dev.window.appearing = false then none
  else some ⟨dev.setWindow dev.window.appeared, dev.appearance.1, dev.appearance.2⟩

/-- Firebase Auth sets its current user before the completion handler is called. -/
def served (dev : Device) (call : Call) (answer : Answer) : Device :=
  match call, answer with
  | .createUser _ _ _, .user uid => { dev with currentUser := some uid }
  | .signIn _ _, .user uid => { dev with currentUser := some uid }
  | .deleteUser uid, .done =>
    if dev.currentUser = some uid then { dev with currentUser := none } else dev
  | _, _ => dev

/-- Auth finds that the user is gone, disabled or no longer valid, while it answers a request with
an error or renews a token. -/
def signOutByForce (dev : Device) : Device := { dev with currentUser := none }

/-- The closure of a load, on the screen it captured; a screen that was popped meanwhile
decodes all the same, but shows nothing any more. -/
def loadAnswer (userid : String) (snapshot : Option Snapshot) :
    Option Screen → Except Trap (Option Screen)
  | some (.profile vc) => return some (.profile (← vc.getUserDataAnswer userid snapshot))
  | some (.chat vc) => return some (.chat (← vc.userNameAnswer userid snapshot))
  | _ => do
    let _ ← decodeUser userid snapshot
    return none

def screen (dev : Device) (issuer : Option ℕ) : Option Screen :=
  (dev.window.stack.find? fun p => some p.id == issuer).map (·.content)

def forgetPasswordScreen (dev : Device) (issuer : Option ℕ) : ForgetPasswordVC :=
  match dev.window.covers.find? fun p => some p.id == issuer with
  | some ⟨_, _, .forgetPassword vc⟩ => vc
  | _ => {}

def complete (dev : Device) (issuer : Option ℕ) : Call → Answer → Reaction
  | .getDocument uid, .snapshot snapshot =>
    match loadAnswer uid snapshot (dev.screen issuer) with
    | .error trap => ⟨dev, issuer, .error trap⟩
    | .ok none => ⟨dev, issuer, .ok []⟩
    | .ok (some screen) =>
      ⟨dev.setWindow (dev.window.modifyScreen issuer fun _ => screen), issuer, .ok []⟩
  | .createUser email _ userName, answer =>
    ⟨dev, issuer, .ok (SignupAndLoginVC.createUserDone email userName answer.uid)⟩
  | .signIn _ _, answer => ⟨dev, issuer, .ok (SignupAndLoginVC.signInDone answer.isError)⟩
  | .deleteUser _, answer => ⟨dev, issuer, .ok (UserProfileVC.deleteUserDone answer.isError)⟩
  | .sendPasswordReset _, answer =>
    let (vc, calls) := (dev.forgetPasswordScreen issuer).sendPasswordResetDone answer.isError
    ⟨dev.setWindow (dev.window.modifyCover issuer (Cover.setForgetPassword vc)), issuer,
      .ok calls⟩
  | _, _ => ⟨dev, issuer, .ok []⟩

end Device

/-- The device once a reaction is through: a failed force operation stops the app. -/
def Reaction.after (reaction : Reaction) : Device :=
  match reaction.calls with
  | .error trap => { reaction.device with trapped := some trap }
  | .ok calls => calls.foldl (Device.perform reaction.issuer) reaction.device

end LoopChat
