import LoopChat.WindowInvariants

/-!
# The profile forms of a device

What may go into a field of a user's profile is a parameter `P` here. A device keeps to it on
all its forms, if what is typed and what is loaded keeps to it and if a screen is only ever given
the document of the user who is signed in.
-/
namespace LoopChat
open FirebaseValues NavigationWindow

/-- The texts of the profile form and of the stored documents. -/
inductive TextField
  | userName
  | email
  deriving DecidableEq, Repr

namespace TextField

/-- The name of the field in a stored document. -/
def key : TextField → String
  | .userName => "userName"
  | .email => "email"

/-- The user types the text into the form. -/
def edit : TextField → String → Tap
  | .userName => .editUserName
  | .email => .editEmail

def shown : TextField → UserProfileVC → String
  | .userName, vc => vc.profileUserName
  | .email, vc => vc.profileEmail

/-- What a sign-up with these texts stores in the field. -/
def entered (email userName : String) : TextField → String
  | .userName => userName
  | .email => email

end TextField

/-- Every text among the fields may be stored for the user. -/
def OwnFields (P : TextField → String → String → Prop) (uid : String) (fields : Fields) : Prop :=
  ∀ f text, fields.string f.key = some text → P f uid text

/-- Every text on the form may be stored for the user. -/
def OwnForm (P : TextField → String → String → Prop) (uid : String) (vc : UserProfileVC) : Prop :=
  ∀ f, P f uid (f.shown vc)

/-- A request only stores what may be stored for its user. -/
def OwnCall (P : TextField → String → String → Prop) : Call → Prop
  | .setData uid document => OwnFields P uid document
  | .updateData uid fields => OwnFields P uid fields
  | .updateEmail uid email => P .email uid email
  | _ => True

/-- What a completion handler is given to show or to store. -/
def OwnAnswer (P : TextField → String → String → Prop) : Call → Answer → Prop
  | .getDocument uid, .snapshot (some (some document)) => OwnFields P uid document
  | .createUser email _ userName, .user uid => ∀ f, P f uid (f.entered email userName)
  | _, _ => True

variable {P : TextField → String → String → Prop} {uid : String} {vc : UserProfileVC}

theorem OwnFields.merge {document fields : Fields} (h : OwnFields P uid document)
    (hfields : OwnFields P uid fields) : OwnFields P uid (document.merge fields) := by
  intro f text hf
  rw [Fields.string_merge] at hf
  split_ifs at hf
  · exact hfields f text hf
  · exact h f text hf

theorem ownFields_updateFields (h : OwnForm P uid vc) :
    OwnFields P uid (UserProfileVC.updateFields vc.profileUserName vc.profileEmail) := by
  intro f text hf
  have hform := h f
  cases f with
  | userName =>
    obtain rfl : vc.profileUserName = text := Option.some.inj hf
    exact hform
  | email =>
    obtain rfl : vc.profileEmail = text := Option.some.inj hf
    exact hform

theorem ownFields_userDocument {userName email : String}
    (h : ∀ f : TextField, P f uid (f.entered email userName)) :
    OwnFields P uid (SignupAndLoginVC.userDocument userName email uid) := by
  intro f text hf
  have hentered := h f
  cases f with
  | userName =>
    obtain rfl : userName = text := Option.some.inj hf
    exact hentered
  | email =>
    obtain rfl : email = text := Option.some.inj hf
    exact hentered

/-- A load puts the texts of the document into the form. -/
theorem ownForm_showUser {document : Fields} {user : User} (blank : ∀ f, P f uid "")
    (h : OwnFields P uid document) (hd : decodeUser uid (some (some document)) = .ok user) :
    OwnForm P uid (vc.showUser user) := by
  obtain ⟨document', userName, hs, hname, rfl⟩ := decodeUser_eq_ok.mp hd
  obtain rfl : document = document' := by simpa using hs
  intro f
  cases f with
  | userName => exact h .userName userName hname
  | email =>
    cases he : document.string "email" with
    | none => simpa [UserProfileVC.showUser, TextField.shown, he] using blank .email
    | some email => simpa [UserProfileVC.showUser, TextField.shown, he] using h .email email he

namespace Device

/-- A device after reactions of its own: what was pushed meanwhile has new numbers, and nobody
else was signed in. -/
structure Follows (dev dev' : Device) : Prop where
  window : dev.window.Grows dev'.window
  user : dev'.currentUser = dev.currentUser ∨ dev'.currentUser = none

variable {dev dev' dev'' : Device} {t : Tap} {reaction : Reaction} {issuer : Option ℕ}
  {call : Call} {answer : Answer} {screen : Screen}

theorem Follows.of_window (h : dev.window.Grows dev'.window)
    (hu : dev'.currentUser = dev.currentUser) : dev.Follows dev' := ⟨h, Or.inl hu⟩

theorem Follows.refl (dev : Device) : dev.Follows dev := .of_window (.refl _) rfl

theorem Follows.trans (h : dev.Follows dev') (g : dev'.Follows dev'') : dev.Follows dev'' := by
  refine ⟨h.window.trans g.window, ?_⟩
  rcases g.user with hg | hg
  · rcases h.user with hh | hh
    · exact Or.inl (hg.trans hh)
    · exact Or.inr (hg.trans hh)
  · exact Or.inr hg

theorem follows_perform (issuer : Option ℕ) (dev : Device) (call : Call) :
    dev.Follows (dev.perform issuer call) := by
  cases call with
  | signOut => exact ⟨.refl _, Or.inr rfl⟩
  | popToRoot => exact .of_window (dev.window.grows_popToRoot issuer) rfl
  | dismiss => exact .of_window (dev.window.grows_dismiss Cover.hides issuer) rfl
  | present screen => exact .of_window (dev.window.grows_present issuer screen.cover) rfl
  | showLogin => exact .of_window (dev.window.grows_presentOnRoot .login) rfl
  | _ => exact .refl dev

/-- What the calls on UIKit and the log-out keep, a whole reaction keeps. -/
theorem after_induction {I : Device → Prop} (h : I reaction.device)
    (hperform : ∀ dev call, I dev → I (dev.perform reaction.issuer call))
    (htrap : ∀ dev trap, I dev → I { dev with trapped := some trap }) : I reaction.after := by
  have hfold : ∀ (calls : List Call) dev, I dev →
      I (calls.foldl (perform reaction.issuer) dev) := by
    intro calls
    induction calls with
    | nil => exact fun _ hdev => hdev
    | cons call calls ih => exact fun dev hdev => ih _ (hperform dev call hdev)
  unfold Reaction.after
  cases reaction.calls with
  | error trap => exact htrap _ trap h
  | ok calls => exact hfold calls _ h

theorem follows_after (reaction : Reaction) : reaction.device.Follows reaction.after :=
  after_induction (.refl _) (fun dev call h => h.trans (follows_perform _ dev call))
    fun _ _ h => h.trans (.of_window (.refl _) rfl)

theorem follows_tap (ht : TapEffect dev t reaction) : dev.Follows reaction.after := by
  refine Follows.trans ?_ (follows_after reaction)
  cases ht with
  | pushed issuer screen idle => exact .of_window (dev.window.grows_push screen) rfl
  | popped idle stack => exact .of_window dev.window.grows_pop rfl
  | @edited _ id vc _ vc' idle stack =>
    exact .of_window (dev.window.grows_modifyScreen (some id) fun _ => .profile vc') rfl
  | confirmed covers kind => exact .of_window (dev.window.grows_dismiss Cover.hides _) rfl
  | closed covers kind => exact .of_window (dev.window.grows_dismiss Cover.hides _) rfl
  | _ => exact .of_window (.of_subset le_rfl (List.Subset.refl _)) rfl

theorem follows_viewDidAppear (ha : dev.viewDidAppear = some reaction) :
    dev.Follows reaction.after := by
  refine Follows.trans ?_ (follows_after reaction)
  obtain ⟨-, -, rfl⟩ := viewDidAppear_eq_some.mp ha
  exact .of_window (.of_subset le_rfl (List.Subset.refl _)) rfl

theorem follows_complete (hc : CompleteEffect dev issuer call answer reaction) :
    dev.Follows reaction.after := by
  refine Follows.trans ?_ (follows_after reaction)
  cases hc with
  | loaded screen decode =>
    exact .of_window (dev.window.grows_modifyScreen issuer fun _ => screen) rfl
  | _ => exact .of_window (.of_subset le_rfl (List.Subset.refl _)) rfl

/-! ### The forms on a device -/

/-- The forms show nothing that may not be stored for the user who is signed in. -/
def ShowsOwn (P : TextField → String → String → Prop) (dev : Device) : Prop :=
  ∀ uid, dev.currentUser = some uid → ∀ p ∈ dev.window.stack, ∀ vc, p.content = .profile vc →
    OwnForm P uid vc

theorem ShowsOwn.restrict (h : dev.ShowsOwn P) (hs : dev'.window.stack ⊆ dev.window.stack)
    (hu : dev'.currentUser = dev.currentUser ∨ dev'.currentUser = none) : dev'.ShowsOwn P := by
  intro uid huid p hp vc hvc
  rcases hu with hu | hu
  · exact h uid (hu.symm.trans huid) p (hs hp) vc hvc
  · simp [hu] at huid

theorem perform_stack (issuer : Option ℕ) (dev : Device) (call : Call) :
    (dev.perform issuer call).window.stack ⊆ dev.window.stack := by
  cases call with
  | popToRoot =>
    rcases dev.window.popToRoot_stack issuer with h | h <;> simp [perform, h]
  | _ => simp [perform]

/-- The calls of a reaction bring no form up. -/
theorem ShowsOwn.after (h : reaction.device.ShowsOwn P) : reaction.after.ShowsOwn P :=
  after_induction h
    (fun dev call hdev =>
      hdev.restrict (perform_stack _ dev call) (follows_perform _ dev call).user)
    fun _ _ hdev => hdev.restrict (List.Subset.refl _) (Or.inl rfl)

theorem ShowsOwn.push (h : dev.ShowsOwn P)
    (hnew : ∀ uid vc, screen = .profile vc → OwnForm P uid vc) :
    (dev.setWindow (dev.window.push screen)).ShowsOwn P := by
  intro uid hu p hp vc hvc
  rcases List.mem_cons.mp hp with rfl | hp
  · exact hnew uid vc hvc
  · exact h uid hu p hp vc hvc

theorem ShowsOwn.modifyScreen {id : Option ℕ} (h : dev.ShowsOwn P)
    (hnew : ∀ uid vc, dev.currentUser = some uid → screen = .profile vc →
      (∃ p ∈ dev.window.stack, some p.id = id) → OwnForm P uid vc) :
    (dev.setWindow (dev.window.modifyScreen id fun _ => screen)).ShowsOwn P := by
  intro uid hu p hp vc hvc
  obtain ⟨q, hq, rfl⟩ := List.mem_map.mp hp
  split_ifs at hvc with hid
  · exact hnew uid vc hu hvc ⟨q, hq, hid⟩
  · exact h uid hu q hq vc hvc

/-- A new form is empty, and typing changes one text of the form on top. -/
theorem showsOwn_tapScreen (h : dev.ShowsOwn P) (blank : ∀ f uid, P f uid "")
    (typed : ∀ f text uid, t = TextField.edit f text → dev.currentUser = some uid → P f uid text)
    (ht : dev.tapScreen t = some reaction) : reaction.device.ShowsOwn P := by
  unfold tapScreen at ht
  split at ht
  case h_1 => exact Option.some.inj ht ▸ h.push (by simp)
  case h_2 => exact Option.some.inj ht ▸ h.push (by simp)
  case h_3 => exact Option.some.inj ht ▸ h.push (by simp)
  case h_4 =>
    refine Option.some.inj ht ▸ h.push fun uid vc hvc f => ?_
    obtain rfl := Screen.profile.inj hvc
    cases f <;> exact blank _ uid
  case h_5 => exact Option.some.inj ht ▸ h
  case h_6 id vc below text hs =>
    refine Option.some.inj ht ▸ h.modifyScreen fun uid vc' hu hvc _ f => ?_
    obtain rfl := Screen.profile.inj hvc
    cases f with
    | userName => exact typed .userName text uid rfl hu
    | email => exact h uid hu ⟨id, .profile vc⟩ (by simp [hs]) vc rfl .email
  case h_7 id vc below text hs =>
    refine Option.some.inj ht ▸ h.modifyScreen fun uid vc' hu hvc _ f => ?_
    obtain rfl := Screen.profile.inj hvc
    cases f with
    | userName => exact h uid hu ⟨id, .profile vc⟩ (by simp [hs]) vc rfl .userName
    | email => exact typed .email text uid rfl hu
  case h_8 => exact Option.some.inj ht ▸ h
  case h_9 => exact Option.some.inj ht ▸ h
  case h_10 => exact Option.some.inj ht ▸ h.restrict (List.tail_subset _) (Or.inl rfl)
  case h_11 => exact Option.some.inj ht ▸ h.restrict (List.Subset.refl _) (Or.inl rfl)
  case h_12 => exact absurd ht (by simp)

theorem showsOwn_tapCover {cover : Presented Cover} {below : List (Presented Cover)}
    (h : dev.ShowsOwn P) (covers : dev.window.covers = cover :: below)
    (ht : dev.tapCover cover t = some reaction) : reaction.device.ShowsOwn P := by
  have hidle : ¬ dev.Idle := fun idle => by simp [idle.1] at covers
  cases tapCover_effect covers ht with
  | confirmed covers kind =>
    exact h.restrict (by simp [dismissed]) (Or.inl rfl)
  | closed covers kind => exact h.restrict (by simp [dismissed]) (Or.inl rfl)
  | resetEdited vc covers => exact h.restrict (List.Subset.refl _) (Or.inl rfl)
  | called covers call_kind => exact h
  | _ => contradiction

theorem ShowsOwn.tap (h : dev.ShowsOwn P) (blank : ∀ f uid, P f uid "")
    (typed : ∀ f text uid, t = TextField.edit f text → dev.currentUser = some uid → P f uid text)
    (ht : dev.tap t = some reaction) : reaction.after.ShowsOwn P := by
  apply ShowsOwn.after
  rcases (tap_cases ht).2 with ⟨-, ht⟩ | ⟨cover, below, covers, ht⟩
  · exact showsOwn_tapScreen h blank typed ht
  · exact showsOwn_tapCover h covers ht

theorem ShowsOwn.viewDidAppear (h : dev.ShowsOwn P) (ha : dev.viewDidAppear = some reaction) :
    reaction.after.ShowsOwn P := by
  obtain ⟨-, -, rfl⟩ := viewDidAppear_eq_some.mp ha
  exact ShowsOwn.after (h.restrict (List.Subset.refl _) (Or.inl rfl))

/-- The load of a request is for the user who is signed in as long as its screen is there. -/
def LoadsOwn (dev : Device) (issuer : Option ℕ) (call : Call) : Prop :=
  ∀ uid id, call = .getDocument uid → issuer = some id → id < dev.window.nextId ∧
    ((∃ p ∈ dev.window.stack, p.id = id) → ∀ user, dev.currentUser = some user → user = uid)

theorem LoadsOwn.follows (h : dev.LoadsOwn issuer call) (g : dev.Follows dev') :
    dev'.LoadsOwn issuer call := by
  intro uid id hcall hid
  obtain ⟨hlt, hown⟩ := h uid id hcall hid
  refine ⟨hlt.trans_le g.window.nextId, fun ⟨p, hp, hpid⟩ user huser => ?_⟩
  have huser' : dev.currentUser = some user := by
    rcases g.user with hu | hu
    · exact hu.symm.trans huser
    · simp [hu] at huser
  rcases g.window.stack p hp with ⟨q, hq, hqid⟩ | ⟨hle, -⟩
  · exact hown ⟨q, hq, hqid.trans hpid⟩ user huser'
  · omega

theorem loadAnswer_profile {snapshot : Option Snapshot} {shown : Option Screen} {user : User}
    (hd : decodeUser uid snapshot = .ok user)
    (h : loadAnswer uid snapshot shown = .ok (some (.profile vc))) :
    ∃ before : UserProfileVC, vc = before.showUser user := by
  rcases shown with _ | (_ | before | _ | _) <;>
    simp [loadAnswer, UserProfileVC.getUserDataAnswer, ChatScreentVC.userNameAnswer, hd, bind,
      Except.bind, pure, Except.pure] at h
  exact ⟨before, h.symm⟩

/-- The screen that a load was made for shows the document it is given. -/
theorem ShowsOwn.complete (h : dev.ShowsOwn P) (blank : ∀ f uid, P f uid "")
    (hload : dev.LoadsOwn issuer call) (hanswer : OwnAnswer P call answer) :
    (dev.complete issuer call answer).after.ShowsOwn P := by
  apply ShowsOwn.after
  unfold Device.complete
  split
  case h_1 uid snapshot =>
    cases hd : decodeUser uid snapshot with
    | error trap => simpa only [loadAnswer_of_error hd] using h
    | ok user =>
      obtain ⟨shown, hs⟩ := loadAnswer_of_ok hd (dev.screen issuer)
      rw [hs]
      cases shown with
      | none => exact h
      | some screen =>
        refine h.modifyScreen fun user' vc hu hvc ⟨p, hp, hpid⟩ => ?_
        obtain rfl := (hload uid p.id rfl hpid.symm).2 ⟨p, hp, rfl⟩ user' hu
        obtain ⟨before, rfl⟩ := loadAnswer_profile hd (hvc ▸ hs)
        obtain ⟨document, -, rfl, -, -⟩ := decodeUser_eq_ok.mp hd
        exact ownForm_showUser (fun f => blank f _) hanswer hd
  case h_5 => exact h.restrict (List.Subset.refl _) (Or.inl rfl)
  all_goals exact h

end Device

end LoopChat
