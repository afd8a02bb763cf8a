import LoopChat.DeviceWindow

/-!
# What a reaction of a device can be

One inversion for the taps, one for the appearances and one for the completion handlers;
the invariants of the window and of the requests are read off from these.
-/
namespace LoopChat
open FirebaseValues NavigationWindow

/-- The calls of the buttons of the presented controllers. -/
inductive CoverCall : Call → Prop
  | alert (title message : String) : CoverCall (.present (.alert title message))
  | forgetPassword : CoverCall (.present .forgetPassword)
  | createUser (email password userName : String) : CoverCall (.createUser email password userName)
  | signIn (email password : String) : CoverCall (.signIn email password)
  | sendPasswordReset (email : String) : CoverCall (.sendPasswordReset email)

namespace Device

def Idle (dev : Device) : Prop := dev.window.covers = [] ∧ dev.window.appearing = false

/-- What a tap does, with everything that was checked on the way. -/
inductive TapEffect (dev : Device) : Tap → Reaction → Prop
  | pushed {tap : Tap} (issuer : Option ℕ) (screen : Screen) (idle : dev.Idle) :
      TapEffect dev tap ⟨dev.setWindow (dev.window.push screen), issuer, .ok []⟩
  | popped {top : Pushed Screen} {below : List (Pushed Screen)} (idle : dev.Idle)
      (stack : dev.window.stack = top :: below) :
      TapEffect dev .back ⟨dev.setWindow dev.window.pop, some top.id, .ok []⟩
  | reappeared {top : Pushed Screen} {below : List (Pushed Screen)} (idle : dev.Idle)
      (stack : dev.window.stack = top :: below) :
      TapEffect dev .cancelledBack ⟨dev.setWindow dev.window.reappear, some top.id, .ok []⟩
  | loggedOut {id : ℕ} {below : List (Pushed Screen)} (idle : dev.Idle)
      (stack : dev.window.stack = ⟨id, .settings⟩ :: below) :
      TapEffect dev .logoutButton ⟨dev, some id, .ok SettignScreenVC.logoutButton⟩
  | edited {tap : Tap} {id : ℕ} {vc : UserProfileVC} {below : List (Pushed Screen)}
      (vc' : UserProfileVC) (idle : dev.Idle)
      (stack : dev.window.stack = ⟨id, .profile vc⟩ :: below) :
      TapEffect dev tap
        ⟨dev.setWindow (dev.window.modifyScreen (some id) fun _ => .profile vc'), some id, .ok []⟩
  | updated {id : ℕ} {vc : UserProfileVC} {below : List (Pushed Screen)} (idle : dev.Idle)
      (stack : dev.window.stack = ⟨id, .profile vc⟩ :: below) :
      TapEffect dev .updateUserInfo ⟨dev, some id, vc.update dev.currentUser⟩
  | asked {id : ℕ} {vc : UserProfileVC} {below : List (Pushed Screen)} (idle : dev.Idle)
      (stack : dev.window.stack = ⟨id, .profile vc⟩ :: below) :
      TapEffect dev .deleteUserAccount ⟨dev, some id, .ok UserProfileVC.deleteAccount⟩
  | confirmed {cover : Presented Cover} {below : List (Presented Cover)} {title message : String}
      (covers : dev.window.covers = cover :: below)
      (kind : cover.content = .confirm title message) :
      TapEffect dev .yes ⟨dev.dismissed cover, cover.presenter,
        UserProfileVC.deleteAccountYes dev.currentUser⟩
  | closed {tap : Tap} {cover : Presented Cover} {below : List (Presented Cover)}
      (covers : dev.window.covers = cover :: below) (kind : cover.content ≠ .login) :
      TapEffect dev tap ⟨dev.dismissed cover, cover.presenter, .ok []⟩
  | resetEdited {tap : Tap} {cover : Presented Cover} {below : List (Presented Cover)}
      (vc : ForgetPasswordVC) (covers : dev.window.covers = cover :: below) :
      TapEffect dev tap ⟨dev.setWindow (dev.window.modifyCover (some cover.id)
        (Cover.setForgetPassword vc)), some cover.id, .ok []⟩
  | called {tap : Tap} {cover : Presented Cover} {below : List (Presented Cover)} {call : Call}
      (covers : dev.window.covers = cover :: below) (call_kind : CoverCall call) :
      TapEffect dev tap ⟨dev, some cover.id, .ok [call]⟩

variable {dev : Device} {tap : Tap} {reaction : Reaction}

theorem tapScreen_effect (idle : dev.Idle) (h : dev.tapScreen tap = some reaction) :
    TapEffect dev tap reaction := by
  unfold tapScreen at h
  split at h
  case h_1 => exact Option.some.inj h ▸ .pushed none .settings idle
  case h_2 => exact Option.some.inj h ▸ .pushed none .createCommunity idle
  case h_3 community _ =>
    exact Option.some.inj h ▸ .pushed none (.chat { community := some community }) idle
  case h_4 id _ _ => exact Option.some.inj h ▸ .pushed (some id) (.profile {}) idle
  case h_5 hs => exact Option.some.inj h ▸ .loggedOut idle hs
  case h_6 vc _ text hs =>
    exact Option.some.inj h ▸ .edited { vc with profileUserName := text } idle hs
  case h_7 vc _ text hs =>
    exact Option.some.inj h ▸ .edited { vc with profileEmail := text } idle hs
  case h_8 hs => exact Option.some.inj h ▸ .updated idle hs
  case h_9 hs => exact Option.some.inj h ▸ .asked idle hs
  case h_10 hs => exact Option.some.inj h ▸ .popped idle hs
  case h_11 hs => exact Option.some.inj h ▸ .reappeared idle hs
  case h_12 => exact absurd h (by simp)

theorem tapCover_effect {cover : Presented Cover} {below : List (Presented Cover)}
    (covers : dev.window.covers = cover :: below) (h : dev.tapCover cover tap = some reaction) :
    TapEffect dev tap reaction := by
  unfold tapCover at h
  split at h
  case h_1 hk => exact Option.some.inj h ▸ .closed covers (by simp [hk])
  case h_2 hk => exact Option.some.inj h ▸ .confirmed covers hk
  case h_3 hk => exact Option.some.inj h ▸ .closed covers (by simp [hk])
  case h_4 email password _ =>
    rw [← Option.some.inj h]
    rcases SignupAndLoginVC.loginButtonAction_cases email password with ⟨error, he⟩ | he
    · exact he ▸ .called covers (.alert _ _)
    · exact he ▸ .called covers (.signIn email password)
  case h_5 email password confirmPassword userName _ =>
    rw [← Option.some.inj h]
    rcases SignupAndLoginVC.signupButtonAction_cases email password confirmPassword userName
      with ⟨error, he⟩ | he
    · exact he ▸ .called covers (.alert _ _)
    · exact he ▸ .called covers (.createUser email password userName)
  case h_6 => exact Option.some.inj h ▸ .called covers .forgetPassword
  case h_7 text _ => exact Option.some.inj h ▸ .resetEdited { userEmail := text } covers
  case h_8 vc _ =>
    rw [← Option.some.inj h]
    unfold ForgetPasswordVC.sendRestPasswordLink
    split_ifs
    · exact .called covers (.sendPasswordReset vc.userEmail)
    · exact .called covers (.alert _ _)
  case h_9 hk => exact Option.some.inj h ▸ .closed covers (by simp [hk])
  case h_10 => exact absurd h (by simp)

theorem tap_cases (h : dev.tap tap = some reaction) : dev.trapped = none ∧
    (dev.Idle ∧ dev.tapScreen tap = some reaction ∨
      ∃ cover below, dev.window.covers = cover :: below ∧
        dev.tapCover cover tap = some reaction) := by
  unfold Device.tap at h
  by_cases ht : dev.trapped.isSome = true
  · simp [ht] at h
  · refine ⟨by simpa using ht, ?_⟩
    rw [if_neg ht] at h
    cases hc : dev.window.covers with
    | nil =>
      by_cases ha : dev.window.appearing = true
      · simp [hc, ha] at h
      · exact Or.inl ⟨⟨hc, by simpa using ha⟩, by simpa [hc, ha] using h⟩
    | cons cover below => exact Or.inr ⟨cover, below, rfl, by simpa [hc] using h⟩

theorem tap_effect (h : dev.tap tap = some reaction) : TapEffect dev tap reaction := by
  rcases (tap_cases h).2 with ⟨idle, h⟩ | ⟨cover, below, covers, h⟩
  · exact tapScreen_effect idle h
  · exact tapCover_effect covers h

theorem viewDidAppear_eq_some : dev.viewDidAppear = some reaction ↔
    dev.trapped = none ∧ dev.window.appearing = true ∧
      reaction = ⟨dev.setWindow dev.window.appeared, dev.appearance.1, dev.appearance.2⟩ := by
  unfold Device.viewDidAppear
  split_ifs with h
  · constructor
    · exact fun h' => absurd h' (by simp)
    · rintro ⟨ht, ha, -⟩
      simp [ht, ha] at h
  · push Not at h
    simp only [Option.some.injEq, eq_comm (a := reaction)]
    constructor
    · intro h'
      exact ⟨by simpa using h.1, by simpa using h.2, h'⟩
    · exact fun h' => h'.2.2

/-- The calls of an appearance: the root screen observes the list and asks for the login screen,
a profile or chat screen loads the document of whoever is signed in. -/
inductive AppearanceCall (dev : Device) : Option ℕ → Call → Prop
  | showLogin (signed_out : dev.currentUser = none) : AppearanceCall dev none .showLogin
  | observeCommunities : AppearanceCall dev none .observeCommunities
  | observeMessages (issuer : Option ℕ) (communityid : String) :
      AppearanceCall dev issuer (.observeMessages communityid)
  | getDocument {uid : String} {p : Pushed Screen} (signed_in : dev.currentUser = some uid)
      (on_stack : p ∈ dev.window.stack) : AppearanceCall dev (some p.id) (.getDocument uid)

theorem appearance_call {calls : List Call} {call : Call} (hc : dev.appearance.2 = .ok calls)
    (hmem : call ∈ calls) : AppearanceCall dev dev.appearance.1 call := by
  unfold appearance at hc ⊢
  split at hc
  · obtain rfl := Except.ok.inj hc
    rcases List.mem_append.mp hmem with hmem | hmem
    · split_ifs at hmem with hu
      · exact List.mem_singleton.mp hmem ▸ .showLogin hu
      · simp at hmem
    · exact List.mem_singleton.mp hmem ▸ .observeCommunities
  · rename_i id vc below hs
    obtain ⟨uid, huser, rfl⟩ := loadUser_eq_ok.mp hc
    obtain rfl := List.mem_singleton.mp hmem
    exact .getDocument (p := ⟨id, .profile vc⟩) huser (by simp [hs])
  · rename_i id vc below hs
    obtain ⟨uid, huser, rfl⟩ := ChatScreentVC.viewDidAppear_eq_ok.mp hc
    rcases List.mem_cons.mp hmem with rfl | hmem
    · exact .getDocument (p := ⟨id, .chat vc⟩) huser (by simp [hs])
    · unfold ChatScreentVC.getMessage at hmem
      split at hmem
      · simp at hmem
      · exact List.mem_singleton.mp hmem ▸ .observeMessages _ _
  · obtain rfl := Except.ok.inj hc
    simp at hmem

/-- What a completion handler does. A load stops the app exactly when its snapshot cannot
be decoded. -/
inductive CompleteEffect (dev : Device) (issuer : Option ℕ) : Call → Answer → Reaction → Prop
  | trapped {uid : String} {snapshot : Option Snapshot} {trap : Trap}
      (decode : decodeUser uid snapshot = .error trap) :
      CompleteEffect dev issuer (.getDocument uid) (.snapshot snapshot)
        ⟨dev, issuer, .error trap⟩
  | loaded {uid : String} {snapshot : Option Snapshot} {user : User} (screen : Screen)
      (decode : decodeUser uid snapshot = .ok user) :
      CompleteEffect dev issuer (.getDocument uid) (.snapshot snapshot)
        ⟨dev.setWindow (dev.window.modifyScreen issuer fun _ => screen), issuer, .ok []⟩
  | signedUp (email password userName uid : String) :
      CompleteEffect dev issuer (.createUser email password userName) (.user uid)
        ⟨dev, issuer,
          .ok [.setData uid (SignupAndLoginVC.userDocument userName email uid), .dismiss]⟩
  | signedIn {answer : Answer} (email password : String) (no_error : answer.isError = false) :
      CompleteEffect dev issuer (.signIn email password) answer ⟨dev, issuer, .ok [.dismiss]⟩
  | signInFailed {answer : Answer} (email password : String) (error : answer.isError = true) :
      CompleteEffect dev issuer (.signIn email password) answer
        ⟨dev, issuer, .ok (SignupAndLoginVC.showError "User name or Password is wrong")⟩
  | deleted {answer : Answer} (uid : String) (no_error : answer.isError = false) :
      CompleteEffect dev issuer (.deleteUser uid) answer ⟨dev, issuer, .ok [.popToRoot]⟩
  | resetAnswered {answer : Answer} (email title message : String) (vc : ForgetPasswordVC) :
      CompleteEffect dev issuer (.sendPasswordReset email) answer
        ⟨dev.setWindow (dev.window.modifyCover issuer (Cover.setForgetPassword vc)), issuer,
          .ok [.present (.alert title message)]⟩
  | nothing {call : Call} {answer : Answer} (no_auth : call.authenticates answer = false)
      (no_delete : call.deletesUser answer = false) :
      CompleteEffect dev issuer call answer ⟨dev, issuer, .ok []⟩

theorem loadAnswer_of_error {uid : String} {snapshot : Option Snapshot} {trap : Trap}
    (h : decodeUser uid snapshot = .error trap) (screen : Option Screen) :
    loadAnswer uid snapshot screen = .error trap := by
  rcases screen with _ | (_ | _ | _ | _) <;>
    simp [loadAnswer, UserProfileVC.getUserDataAnswer, ChatScreentVC.userNameAnswer, h, bind,
      Except.bind]

theorem loadAnswer_of_ok {uid : String} {snapshot : Option Snapshot} {user : User}
    (h : decodeUser uid snapshot = .ok user) (screen : Option Screen) :
    ∃ shown, loadAnswer uid snapshot screen = .ok shown := by
  rcases screen with _ | (_ | _ | _ | _) <;>
    simp [loadAnswer, UserProfileVC.getUserDataAnswer, ChatScreentVC.userNameAnswer, h, bind,
      Except.bind, pure, Except.pure]

theorem complete_effect (dev : Device) (issuer : Option ℕ) (call : Call) (answer : Answer) :
    CompleteEffect dev issuer call answer (dev.complete issuer call answer) := by
  unfold Device.complete
  split
  case h_1 uid snapshot =>
    cases hd : decodeUser uid snapshot with
    | error trap => simpa only [loadAnswer_of_error hd] using .trapped hd
    | ok user =>
      obtain ⟨shown, hs⟩ := loadAnswer_of_ok hd (dev.screen issuer)
      rw [hs]
      cases shown with
      | none => exact .nothing rfl rfl
      | some screen => exact .loaded screen hd
  case h_2 email password userName =>
    cases answer with
    | user uid => exact .signedUp email password userName uid
    | failed => exact .nothing rfl rfl
    | done => exact .nothing rfl rfl
    | snapshot s => exact .nothing rfl rfl
  case h_3 email password =>
    cases he : answer.isError with
    | true => exact .signInFailed email password he
    | false => exact .signedIn email password he
  case h_4 uid =>
    cases answer with
    | failed => exact .nothing rfl rfl
    | done => exact .deleted uid rfl
    | user uid' => exact .deleted uid rfl
    | snapshot s => exact .deleted uid rfl
  case h_5 email =>
    unfold ForgetPasswordVC.sendPasswordResetDone
    split_ifs
    · exact .resetAnswered email _ _ _
    · exact .resetAnswered email _ _ _
  case h_6 no_create no_signIn no_delete no_reset no_load =>
    cases call
    case createUser email password userName =>
      exact absurd rfl (no_create email password userName)
    case signIn email password => exact absurd rfl (no_signIn email password)
    case deleteUser uid => exact absurd rfl (no_delete uid)
    case sendPasswordReset email => exact absurd rfl (no_reset email)
    all_goals exact .nothing rfl rfl

end Device

end LoopChat
