import LoopChat.StoredProfiles

/-!
# Whose requests touch an account

No rule of Auth or Firestore is part of the model: a request takes effect whoever sent it.
That a device only reads, changes and deletes what belongs to a user who was signed in on it
is the doing of the controllers, whatever signs in and out while the requests are on their way.
-/
namespace LoopChat
open FirebaseValues NavigationWindow

/-- The uid whose document or account a request names. -/
def Call.subject : Call → Option String
  | .getDocument uid | .setData uid _ | .updateData uid _ | .deleteDocument uid => some uid
  | .updateEmail uid _ | .deleteUser uid => some uid
  | _ => none

variable {normalise : String → String} {load : String → Option (Option Snapshot)}
  {st st' : Stores} {call : Call} {outcome : Outcome} {answer : Answer} {uid : String}

/-- A request changes nothing but the account and the document that it names or creates. -/
theorem Stores.Effect.untouched (h : Stores.Effect normalise load st call outcome answer st')
    (hsubject : call.subject ≠ some uid) (hcreates : ¬ Stores.Creates call answer uid) :
    st'.accounts uid = st.accounts uid ∧ st'.users uid = st.users uid := by
  cases h with
  | @created uid' email password userName fresh =>
    have hne : uid ≠ uid' := fun he => hcreates ⟨email, password, userName, rfl, by rw [he]⟩
    exact ⟨Function.update_of_ne hne _ _, rfl⟩
  | @emailUpdated uid' old email account =>
    have hne : uid ≠ uid' := fun he => hsubject (by simp [Call.subject, he])
    exact ⟨Function.update_of_ne hne _ _, rfl⟩
  | @userDeleted uid' old account =>
    have hne : uid ≠ uid' := fun he => hsubject (by simp [Call.subject, he])
    exact ⟨Function.update_of_ne hne _ _, rfl⟩
  | documentSet uid' document =>
    have hne : uid ≠ uid' := fun he => hsubject (by simp [Call.subject, he])
    exact ⟨rfl, Function.update_of_ne hne _ _⟩
  | @documentUpdated uid' document fields exists_at =>
    have hne : uid ≠ uid' := fun he => hsubject (by simp [Call.subject, he])
    exact ⟨rfl, Function.update_of_ne hne _ _⟩
  | documentDeleted uid' =>
    have hne : uid ≠ uid' := fun he => hsubject (by simp [Call.subject, he])
    exact ⟨rfl, Function.update_of_ne hne _ _⟩
  | _ => exact ⟨rfl, rfl⟩

namespace AppSystem
open TransitionRuns

variable {stores : Stores} {session : ℕ → Option String} {w w' : World} {a : Act} {as : List Act}
  {n d : ℕ} {dev : Device} {t : Tap} {reaction : Reaction} {issuer : Option ℕ} {r : Request}

/-- The user was signed in on the device in some state passed on the run. -/
def SignedInOn (normalise : String → String) (w₀ : World) (as : List Act) (d : ℕ)
    (uid : String) : Prop :=
  Once (step normalise) w₀ as fun s => (s.devices d).currentUser = some uid

/-- The uid that a request is about, by what it names or by the answer to its sign-up. -/
def Request.about (r : Request) : Option String :=
  match r.call, r.answer with
  | .createUser _ _ _, some (.user uid) => some uid
  | call, _ => call.subject

theorem Request.about_of_subject (h : r.call.subject = some uid) : r.about = some uid := by
  unfold Request.about
  split
  · rename_i hcall _
    simp [hcall, Call.subject] at h
  · exact h

theorem Request.about_of_waiting (h : r.answer = none) : r.about = r.call.subject := by
  unfold Request.about
  split
  · rename_i hanswer
    simp [h] at hanswer
  · rfl

theorem device_of_made (hr : r ∈ made n d reaction) : r.device = d := by
  obtain ⟨calls, call, -, -, -, rfl⟩ := mem_made.mp hr
  rfl

/-- A tap that names a user is made while this user is signed in. -/
theorem subject_of_tap (ht : Device.TapEffect dev t reaction) (hr : r ∈ made n d reaction)
    (hs : r.call.subject = some uid) : dev.currentUser = some uid := by
  obtain ⟨calls, call, hc, hmem, hreq, rfl⟩ := mem_made.mp hr
  cases ht with
  | loggedOut idle stack =>
    obtain rfl := Except.ok.inj hc
    simp only [SettignScreenVC.logoutButton, SettignScreenVC.presentLoginScreen, List.mem_cons,
      List.not_mem_nil, or_false] at hmem
    rcases hmem with rfl | rfl <;> simp [Call.subject] at hs
  | updated idle stack =>
    obtain ⟨uid', huser, rfl⟩ := UserProfileVC.update_eq_ok.mp hc
    rcases List.mem_pair.mp hmem with rfl | rfl
    · exact huser.trans hs
    · exact huser.trans hs
  | confirmed covers kind =>
    obtain ⟨uid', huser, rfl⟩ := UserProfileVC.deleteAccountYes_eq_ok.mp hc
    rcases List.mem_pair.mp hmem with rfl | rfl
    · exact huser.trans hs
    · exact huser.trans hs
  | asked idle stack =>
    obtain rfl := Except.ok.inj hc
    obtain rfl := List.mem_singleton.mp hmem
    simp [Call.subject] at hs
  | called covers call_kind =>
    obtain rfl := Except.ok.inj hc
    obtain rfl := List.mem_singleton.mp hmem
    cases call_kind <;> simp [Call.subject] at hs
  | _ =>
    obtain rfl := Except.ok.inj hc
    simp at hmem

/-- A screen that appears loads the document of the user who is signed in. -/
theorem subject_of_viewDidAppear (ha : dev.viewDidAppear = some reaction)
    (hr : r ∈ made n d reaction) (hs : r.call.subject = some uid) : dev.currentUser = some uid := by
  obtain ⟨uid', huser, p, -, rfl⟩ := made_viewDidAppear ha hr
  exact huser.trans hs

/-- Auth signs the user of a new account in before anybody learns its uid. -/
theorem served_currentUser_of_creates (h : Stores.Creates call answer uid) (dev : Device) :
    (dev.served call answer).currentUser = some uid := by
  obtain ⟨email, password, userName, rfl, rfl⟩ := h
  rfl

theorem Request.about_answered {request : Request} {answer : Answer}
    (h : ({ request with answer := some answer } : Request).about = some uid) :
    request.call.subject = some uid ∨ Stores.Creates request.call answer uid := by
  unfold Request.about at h
  split at h
  · rename_i email password userName uid' hcall hanswer
    obtain rfl := Option.some.inj h
    exact Or.inr ⟨email, password, userName, hcall, Option.some.inj hanswer⟩
  · exact Or.inl h

/-- Whoever a request is about was signed in on its device. -/
theorem about_run (h : Run (step normalise) (initial stores session) as w) (hr : r ∈ w.requests)
    (habout : r.about = some uid) :
    SignedInOn normalise (initial stores session) as r.device uid := by
  induction h generalizing r uid with
  | nil => simp [initial] at hr
  | @snoc as w a w' prior next ih =>
    cases step_effect next with
    | @tapped e _ reaction tapped =>
      rcases List.mem_append.mp hr with hr | hr
      · exact (ih hr habout).append [_]
      · have hwaiting := (tap_userCall (Device.tap_effect tapped) hr).1
        rw [Request.about_of_waiting hwaiting] at habout
        rw [device_of_made hr]
        exact (Once.now prior (subject_of_tap (Device.tap_effect tapped) hr habout)).append [_]
    | @appeared e reaction appeared =>
      rcases List.mem_append.mp hr with hr | hr
      · exact (ih hr habout).append [_]
      · have hwaiting := (viewDidAppear_userCall appeared hr).1
        rw [Request.about_of_waiting hwaiting] at habout
        rw [device_of_made hr]
        exact (Once.now prior (subject_of_viewDidAppear appeared hr habout)).append [_]
    | @served before after request outcome answer stores at_i waiting serve =>
      rcases mem_answered hr with hr | rfl
      · exact (ih (at_i ▸ hr) habout).append [_]
      · rcases Request.about_answered habout with hsubject | hcreates
        · exact (ih (r := request) (by simp [at_i])
            (Request.about_of_subject hsubject)).append [_]
        · exact Once.now (prior.snoc next)
            (by simpa using served_currentUser_of_creates hcreates (w.devices request.device))
    | @completed before after request answer at_i answered running =>
      rcases List.mem_append.mp hr with hr | hr
      · exact (ih (at_i ▸ remaining_subset hr) habout).append [_]
      · rcases made_complete (d := request.device) (Device.complete_effect _ request.issuer
          request.call answer) with ⟨email, password, userName, uid', hcall, hanswer, hmade⟩ |
            ⟨hmade, -⟩
        · rw [hmade] at hr
          obtain rfl := List.mem_singleton.mp hr
          have hrequest : request.about = some uid := by
            rw [Request.about, answered, hcall, hanswer]
            exact habout
          exact (ih (r := request) (by simp [at_i]) hrequest).append [_]
        · simp [hmade] at hr
    | signedOut e => exact (ih hr habout).append [_]

/-- A step that changes the account or the document of a user serves a request of a device on
which this user was signed in. -/
theorem changed_step (h : Run (step normalise) (initial stores session) as w)
    (hs : step normalise w a = some w')
    (hchanged : ¬ (w'.stores.accounts uid = w.stores.accounts uid ∧
      w'.stores.users uid = w.stores.users uid)) :
    ∃ i outcome request, a = .serve i outcome ∧ w.requests[i]? = some request ∧
      SignedInOn normalise (initial stores session) (as ++ [a]) request.device uid := by
  cases step_effect hs with
  | tapped tapped => exact absurd ⟨rfl, rfl⟩ hchanged
  | appeared appeared => exact absurd ⟨rfl, rfl⟩ hchanged
  | @served before after request outcome answer stores at_i waiting serve =>
    refine ⟨before.length, outcome, request, rfl, by simp [at_i], ?_⟩
    by_cases hcreates : Stores.Creates request.call answer uid
    · exact Once.now (h.snoc hs)
        (by simpa using served_currentUser_of_creates hcreates (w.devices request.device))
    · have hsubject : request.call.subject = some uid := by
        by_contra hne
        exact hchanged (serve.untouched hne hcreates)
      exact (about_run h (r := request) (by simp [at_i])
        (Request.about_of_subject hsubject)).append [_]
  | completed at_i answered running => exact absurd ⟨rfl, rfl⟩ hchanged
  | signedOut e => exact absurd ⟨rfl, rfl⟩ hchanged

/-- What belongs to a user is only asked for and only changed by devices on which this user was
signed in: on any other devices nothing that is done, and in whatever order it takes effect,
concerns this user. -/
theorem own_accounts (h : Run (step normalise) (initial stores session) as w) :
    (∀ r ∈ w.requests, ∀ uid, r.call.subject = some uid →
      SignedInOn normalise (initial stores session) as r.device uid) ∧
    (∀ a w' uid, step normalise w a = some w' →
      ¬ (w'.stores.accounts uid = w.stores.accounts uid ∧
        w'.stores.users uid = w.stores.users uid) →
      ∃ i outcome request, a = .serve i outcome ∧ w.requests[i]? = some request ∧
        SignedInOn normalise (initial stores session) (as ++ [a]) request.device uid) ∧
    ∀ uid, (∀ d, ¬ SignedInOn normalise (initial stores session) as d uid) →
      w.stores.accounts uid = stores.accounts uid ∧ w.stores.users uid = stores.users uid := by
  refine ⟨fun r hr uid hs => about_run h hr (Request.about_of_subject hs),
    fun a w' uid hs hchanged => changed_step h hs hchanged, fun uid hnever => ?_⟩
  induction h with
  | nil => exact ⟨rfl, rfl⟩
  | @snoc as w a w' prior next ih =>
    have hkept : w'.stores.accounts uid = w.stores.accounts uid ∧
        w'.stores.users uid = w.stores.users uid := by
      by_contra hchanged
      obtain ⟨-, -, request, -, -, hsigned⟩ := changed_step prior next hchanged
      exact hnever request.device hsigned
    obtain ⟨haccount, hdocument⟩ := ih fun d hd => hnever d (hd.append [a])
    exact ⟨hkept.1.trans haccount, hkept.2.trans hdocument⟩

/-- A save is on its way when its user logs out. -/
def logOutAfterSave : List Act :=
  openProfile ++ [.tap 0 .updateUserInfo, .tap 0 .back, .viewDidAppear 0, .tap 0 .logoutButton]

theorem own_accounts_logOutAfterSave : ∃ w,
    Run (step id) firstLaunch (signUp ++ logOutAfterSave) w ∧
      (w.requests.length, (w.devices 0).currentUser) = (3, none) ∧
      ∀ r ∈ w.requests, ∀ uid, r.call.subject = some uid →
        SignedInOn id firstLaunch (signUp ++ logOutAfterSave) r.device uid := by
  have hexec : (exec (step id) firstLaunch (signUp ++ logOutAfterSave)).map
      (fun w => (w.requests.length, (w.devices 0).currentUser)) = some (3, none) := rfl
  obtain ⟨w, hw, hlast⟩ := run_of_exec_map hexec
  exact ⟨w, hw, hlast, (own_accounts hw).1⟩

end AppSystem

end LoopChat
