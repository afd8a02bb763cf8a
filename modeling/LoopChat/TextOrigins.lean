import LoopChat.DeviceForms
import LoopChat.OwnAccounts

/-!
# Where the texts of a profile come from

A text that is stored, shown or saved for a user is followed back: it was stored at the start,
entered at the sign-up of this user, or typed while this user was signed in. What may go into a
field is still a parameter in the invariant; only the run says what is brought in.
-/
namespace LoopChat
open FirebaseValues NavigationWindow

variable {P : TextField → String → String → Prop} {uid : String}

namespace AppSystem
open TransitionRuns

variable {normalise : String → String} {stores st : Stores} {session : ℕ → Option String}
  {load : String → Option (Option Snapshot)} {w w' : World} {a : Act} {as : List Act} {n d : ℕ}
  {dev : Device} {t : Tap} {reaction : Reaction} {issuer : Option ℕ} {call : Call}
  {outcome : Outcome} {answer : Answer} {r : Request}

/-! ### Requests made on a device -/

/-- A save stores what the form shows, and no tap loads anything. -/
theorem made_tap (h : dev.ShowsOwn P) (ht : Device.TapEffect dev t reaction)
    (hr : r ∈ made n d reaction) : OwnCall P r.call ∧ ∀ uid, r.call ≠ .getDocument uid := by
  obtain ⟨calls, call, hc, hmem, hreq, rfl⟩ := mem_made.mp hr
  cases ht with
  | loggedOut idle stack =>
    obtain rfl := Except.ok.inj hc
    rcases List.mem_pair.mp hmem with rfl | rfl <;> exact ⟨trivial, by simp⟩
  | @updated id vc below idle stack =>
    obtain ⟨uid, huser, rfl⟩ := UserProfileVC.update_eq_ok.mp hc
    have hform : OwnForm P uid vc := h uid huser ⟨id, .profile vc⟩ (by simp [stack]) vc rfl
    rcases List.mem_pair.mp hmem with rfl | rfl
    · exact ⟨ownFields_updateFields hform, by simp⟩
    · exact ⟨hform .email, by simp⟩
  | asked idle stack =>
    obtain rfl := Except.ok.inj hc
    obtain rfl := List.mem_singleton.mp hmem
    exact ⟨trivial, by simp⟩
  | confirmed covers kind =>
    obtain ⟨uid, -, rfl⟩ := UserProfileVC.deleteAccountYes_eq_ok.mp hc
    rcases List.mem_pair.mp hmem with rfl | rfl <;> exact ⟨trivial, by simp⟩
  | called covers call_kind =>
    obtain rfl := Except.ok.inj hc
    obtain rfl := List.mem_singleton.mp hmem
    cases call_kind <;> exact ⟨trivial, by simp⟩
  | _ =>
    obtain rfl := Except.ok.inj hc
    simp at hmem

/-! ### The whole system -/

/-- Every text that is stored, under way or on a form may be stored for the user it is of;
`initially` holds the accounts at the start. -/
structure Separate (normalise : String → String) (initially : String → Option String)
    (P : TextField → String → String → Prop) (w : World) : Prop where
  documents : ∀ uid document, w.stores.users uid = some document → OwnFields P uid document
  versions : ∀ uid, ∀ document ∈ w.versions uid, OwnFields P uid document
  accounts : ∀ uid account, w.stores.accounts uid = some account →
    initially uid = some account ∨ ∃ email, P .email uid email ∧ account = normalise email
  calls : ∀ r ∈ w.requests, OwnCall P r.call
  answers : ∀ r ∈ w.requests, ∀ answer, r.answer = some answer → OwnAnswer P r.call answer
  forms : ∀ d, (w.devices d).ShowsOwn P
  loads : ∀ r ∈ w.requests, (w.devices r.device).LoadsOwn r.issuer r.call
  numbered : ∀ d, (w.devices d).window.Numbered

/-- The user of a device changes only while no screen is open there. -/
def KeepsUser (w : World) : Act → Prop
  | .serve i (.user uid) => ∀ request, w.requests[i]? = some request →
      (w.devices request.device).window.stack = [] ∨
        (w.devices request.device).currentUser = some uid
  | _ => True

/-- The step brings in no text but such as may be stored for its user. -/
def Admits (P : TextField → String → String → Prop) (w : World) : Act → Prop
  | .tap d tap => ∀ f text uid, tap = TextField.edit f text →
      (w.devices d).currentUser = some uid → P f uid text
  | .serve i (.user uid) => ∀ request email password userName, w.requests[i]? = some request →
      request.call = .createUser email password userName → ∀ f, P f uid (f.entered email userName)
  | _ => True

variable {initially : String → Option String}

/-- A reaction of a device, with the requests that are left beside its own. -/
theorem Separate.follow (h : Separate normalise initially P w) {requests : List Request}
    (hsub : requests ⊆ w.requests) (hfollows : (w.devices d).Follows reaction.after)
    (hforms : reaction.after.ShowsOwn P)
    (hmade : ∀ r ∈ made w.reactions d reaction,
      OwnCall P r.call ∧ reaction.after.LoadsOwn r.issuer r.call) :
    Separate normalise initially P ({ w with requests := requests }.follow d reaction) where
  documents := h.documents
  versions := h.versions
  accounts := h.accounts
  calls := by
    intro r hr
    rcases List.mem_append.mp hr with hr | hr
    · exact h.calls r (hsub hr)
    · exact (hmade r hr).1
  answers := by
    intro r hr answer ha
    rcases List.mem_append.mp hr with hr | hr
    · exact h.answers r (hsub hr) answer ha
    · obtain ⟨calls, call, -, -, -, rfl⟩ := mem_made.mp hr
      simp at ha
  forms := by
    intro e
    by_cases he : e = d
    · simpa [World.follow, he] using hforms
    · simpa [World.follow, he] using h.forms e
  loads := by
    intro r hr
    rcases List.mem_append.mp hr with hr | hr
    · have hload := h.loads r (hsub hr)
      by_cases he : r.device = d
      · rw [he] at hload
        simpa [World.follow, he] using hload.follows hfollows
      · simpa [World.follow, he] using hload
    · rw [device_of_made hr]
      simpa [World.follow] using (hmade r hr).2
  numbered := by
    intro e
    by_cases he : e = d
    · simpa [World.follow, he] using (h.numbered d).grows hfollows.window
    · simpa [World.follow, he] using h.numbered e

/-- What is written to a document is of its user, so what is loaded from it is as well. -/
theorem Separate.loaded (h : Separate normalise initially P w) {document : Fields}
    (hload : w.load d outcome uid = some (some (some document))) : OwnFields P uid document := by
  refine of_load hload (fun r hr fields hcall => ?_)
    (fun r hr fields hcall old hold => hold.merge ?_) (h.documents uid) (h.versions uid)
  · simpa [hcall, OwnCall] using h.calls r hr
  · simpa [hcall, OwnCall] using h.calls r hr

theorem ownAnswer_of_effect (h : Separate normalise initially P w)
    (serve : Stores.Effect normalise (w.load d outcome) w.stores call outcome answer st)
    (hcreate : ∀ email password userName uid, call = .createUser email password userName →
      answer = .user uid → ∀ f : TextField, P f uid (f.entered email userName)) :
    OwnAnswer P call answer := by
  cases serve with
  | created email password userName fresh => exact hcreate email password userName _ rfl rfl
  | @loaded uid _ snapshot found =>
    rcases snapshot with _ | _ | document
    · trivial
    · trivial
    · exact h.loaded found
  | failed no_load => cases call <;> trivial
  | _ => trivial

theorem served_currentUser (dev : Device) (call : Call) (answer : Answer) :
    (∃ uid, answer = .user uid ∧ (dev.served call answer).currentUser = some uid) ∨
      (dev.served call answer).currentUser = dev.currentUser ∨
      (dev.served call answer).currentUser = none := by
  unfold Device.served
  split
  · exact Or.inl ⟨_, rfl, rfl⟩
  · exact Or.inl ⟨_, rfl, rfl⟩
  · split_ifs
    · exact Or.inr (Or.inr rfl)
    · exact Or.inr (Or.inl rfl)
  · exact Or.inr (Or.inl rfl)

theorem outcome_of_user
    (serve : Stores.Effect normalise load w.stores call outcome (.user uid) st) :
    outcome = .user uid := by
  cases serve <;> rfl

/-- Auth signs users in only where no form is open, or the user of the open ones again. -/
def Unswitched (dev dev' : Device) : Prop :=
  dev.window.stack = [] ∨ dev'.currentUser = dev.currentUser ∨ dev'.currentUser = none

theorem unswitched_of_keepsUser {before after : List Request} {request : Request}
    (at_i : w.requests = before ++ request :: after)
    (serve : Stores.Effect normalise load w.stores request.call outcome answer st)
    (hkeeps : KeepsUser w (.serve before.length outcome)) :
    Unswitched (w.devices request.device)
      ((w.devices request.device).served request.call answer) := by
  rcases served_currentUser (w.devices request.device) request.call answer with
    ⟨uid, rfl, huser⟩ | hsame
  · obtain rfl := outcome_of_user serve
    rcases hkeeps request (by simp [at_i]) with hstack | hsame
    · exact Or.inl hstack
    · exact Or.inr (Or.inl (huser.trans hsame.symm))
  · exact Or.inr hsame

theorem showsOwn_served (h : dev.ShowsOwn P) (huser : Unswitched dev (dev.served call answer)) :
    (dev.served call answer).ShowsOwn P := by
  have hwindow := Device.served_window dev call answer
  rcases huser with hstack | hsame
  · intro uid hu p hp
    simp [hwindow, hstack] at hp
  · exact h.restrict (by rw [hwindow]; exact List.Subset.refl _) hsame

theorem loadsOwn_served {call' : Call} (h : dev.LoadsOwn issuer call')
    (huser : Unswitched dev (dev.served call answer)) :
    (dev.served call answer).LoadsOwn issuer call' := by
  have hwindow := Device.served_window dev call answer
  rcases huser with hstack | hsame
  · intro uid id hc hid
    rw [hwindow]
    exact ⟨(h uid id hc hid).1, by simp [hstack]⟩
  · exact h.follows ⟨by rw [hwindow]; exact .refl _, hsame⟩

/-- Serving a request stores texts of its user, and may sign a user in where no form is open. -/
theorem Separate.served (h : Separate normalise initially P w) {before after : List Request}
    {request : Request} (at_i : w.requests = before ++ request :: after)
    (serve : Stores.Effect normalise (w.load request.device outcome) w.stores request.call outcome
      answer st) (hkeeps : KeepsUser w (.serve before.length outcome))
    (hadmits : Admits P w (.serve before.length outcome)) :
    Separate normalise initially P ⟨st, Function.update w.devices request.device
      ((w.devices request.device).served request.call answer),
      before ++ { request with answer := some answer } :: after,
      w.served ++ [(request.call, answer)],
      fun uid => w.versions uid ++ (st.users uid).toList, w.reactions⟩ := by
  have hmem : request ∈ w.requests := by simp [at_i]
  have hcall := h.calls request hmem
  have huser := unswitched_of_keepsUser at_i serve hkeeps
  have hcreate : ∀ email password userName uid, request.call = .createUser email password userName →
      answer = .user uid → ∀ f : TextField, P f uid (f.entered email userName) := by
    rintro email password userName uid hcreate rfl
    obtain rfl := outcome_of_user serve
    exact hadmits request email password userName (by simp [at_i]) hcreate
  have hdocuments : ∀ uid document, st.users uid = some document → OwnFields P uid document := by
    intro uid document hu
    rcases serve.document_cases hu with ⟨hc, -⟩ | ⟨old, fields, hc, -, hold, rfl⟩ | ⟨hold, -⟩
    · rw [hc] at hcall
      exact hcall
    · rw [hc] at hcall
      exact (h.documents uid old hold).merge hcall
    · exact h.documents uid document hold
  constructor
  case documents => exact hdocuments
  case versions =>
    intro uid document hd
    rcases List.mem_append.mp hd with hd | hd
    · exact h.versions uid document hd
    · exact hdocuments uid document (Option.mem_toList.mp hd)
  case accounts =>
    intro uid account hu
    rcases serve.account_cases hu with ⟨email, password, userName, hc, ha, rfl⟩ |
      ⟨old, email, hc, -, -, rfl⟩ | ⟨hold, -⟩
    · exact Or.inr ⟨email, hcreate email password userName uid hc ha .email, rfl⟩
    · rw [hc] at hcall
      exact Or.inr ⟨email, hcall, rfl⟩
    · exact h.accounts uid account hold
  case calls =>
    intro r hr
    rcases mem_answered hr with hr | rfl
    · exact h.calls r (at_i ▸ hr)
    · exact hcall
  case answers =>
    intro r hr answer' ha
    rcases mem_answered hr with hr | rfl
    · exact h.answers r (at_i ▸ hr) answer' ha
    · obtain rfl := Option.some.inj ha
      exact ownAnswer_of_effect h serve hcreate
  case forms =>
    exact (Function.forall_update_iff w.devices fun _ dev => dev.ShowsOwn P).mpr
      ⟨showsOwn_served (h.forms _) huser, fun e _ => h.forms e⟩
  case loads =>
    intro r hr
    have hload : (w.devices r.device).LoadsOwn r.issuer r.call := by
      rcases mem_answered hr with hr | rfl
      · exact h.loads r (at_i ▸ hr)
      · exact h.loads request hmem
    by_cases he : r.device = request.device
    · rw [he] at hload
      simpa [he] using loadsOwn_served hload huser
    · simpa [he] using hload
  case numbered =>
    exact (Function.forall_update_iff w.devices fun _ dev => dev.window.Numbered).mpr
      ⟨by rw [Device.served_window]; exact h.numbered _, fun e _ => h.numbered e⟩

/-- Where nobody is signed in, no form is anybody's. -/
theorem Separate.signedOut (h : Separate normalise initially P w) (e : ℕ) :
    Separate normalise initially P
      { w with devices := Function.update w.devices e (w.devices e).signOutByForce } := by
  refine { h with forms := ?_, loads := ?_, numbered := ?_ }
  · exact (Function.forall_update_iff w.devices fun _ dev => dev.ShowsOwn P).mpr
      ⟨(h.forms e).restrict (List.Subset.refl _) (Or.inr rfl), fun e _ => h.forms e⟩
  · intro r hr
    have hload := h.loads r hr
    by_cases he : r.device = e
    · subst he
      have hout : (w.devices r.device).Follows (w.devices r.device).signOutByForce :=
        ⟨.refl _, Or.inr rfl⟩
      simpa using hload.follows hout
    · simpa [he] using hload
  · exact (Function.forall_update_iff w.devices fun _ dev => dev.window.Numbered).mpr
      ⟨h.numbered e, fun e _ => h.numbered e⟩

theorem separate_step (h : Separate normalise initially P w) (blank : ∀ f uid, P f uid "")
    (hkeeps : KeepsUser w a) (hadmits : Admits P w a) (hs : step normalise w a = some w') :
    Separate normalise initially P w' := by
  cases step_effect hs with
  | @tapped e t reaction tapped =>
    have ht := Device.tap_effect tapped
    refine h.follow (List.Subset.refl _) (Device.follows_tap ht)
      ((h.forms e).tap blank hadmits tapped) fun r hr => ?_
    obtain ⟨hcall, hload⟩ := made_tap (h.forms e) ht hr
    exact ⟨hcall, fun uid id hc => absurd hc (hload uid)⟩
  | @appeared e reaction appeared =>
    refine h.follow (List.Subset.refl _) (Device.follows_viewDidAppear appeared)
      ((h.forms e).viewDidAppear appeared) fun r hr => ?_
    obtain ⟨uid, hu, p, hp, rfl⟩ := made_viewDidAppear appeared hr
    have hload : (w.devices e).LoadsOwn (some p.id) (.getDocument uid) := by
      intro uid' id hc hid
      obtain rfl := Call.getDocument.inj hc
      obtain rfl := Option.some.inj hid
      exact ⟨h.numbered e p hp, fun _ user huser => Option.some.inj (huser.symm.trans hu)⟩
    exact ⟨trivial, hload.follows (Device.follows_viewDidAppear appeared)⟩
  | served at_i waiting serve => exact h.served at_i serve hkeeps hadmits
  | @completed before after request answer at_i answered running =>
    have hmem : request ∈ w.requests := by simp [at_i]
    have hanswer := h.answers request hmem answer answered
    have hc := Device.complete_effect (w.devices request.device) request.issuer request.call answer
    refine h.follow (by rw [at_i]; exact remaining_subset) (Device.follows_complete hc)
      ((h.forms _).complete blank (h.loads request hmem) hanswer) fun r hr => ?_
    rcases made_complete (d := request.device) hc with
      ⟨email, password, userName, uid, hcall, rfl, hmade⟩ | ⟨hmade, -⟩
    · rw [hmade] at hr
      obtain rfl := List.mem_singleton.mp hr
      rw [hcall] at hanswer
      exact ⟨ownFields_userDocument hanswer, fun _ _ hc => by simp at hc⟩
    · simp [hmade] at hr
  | signedOut e => exact h.signedOut e

/-! ### Runs -/

/-- Where a text that is stored for a user may come from: it was stored at the start, it was
entered at the sign-up that made the user, or typed into the form while the user was signed in. A
form is blank until it is loaded. -/
inductive OwnText (normalise : String → String) (w₀ : World) (as : List Act) :
    TextField → String → String → Prop
  | blank (f : TextField) (uid : String) : OwnText normalise w₀ as f uid ""
  | stored {f : TextField} {uid text : String} {document : Fields}
      (document_of : w₀.stores.users uid = some document)
      (text_of : document.string f.key = some text) : OwnText normalise w₀ as f uid text
  | entered (f : TextField) {uid email password userName : String} {i : ℕ}
      (signedUp : Taken (step normalise) w₀ as (.serve i (.user uid)) fun s =>
        ∃ request, s.requests[i]? = some request ∧
          request.call = .createUser email password userName) :
      OwnText normalise w₀ as f uid (f.entered email userName)
  | typed {f : TextField} {uid text : String} {d : ℕ}
      (typed : Taken (step normalise) w₀ as (.tap d (f.edit text)) fun s =>
        (s.devices d).currentUser = some uid) : OwnText normalise w₀ as f uid text

/-- A run brings in what `OwnText` says it brings in. -/
theorem admits_along (normalise : String → String) (w₀ : World) (as : List Act) :
    Along (step normalise) w₀ (Admits (OwnText normalise w₀ as)) as := by
  intro pre a post s heq hr
  cases a with
  | tap d tap =>
    rintro f text uid rfl hu
    exact .typed ⟨pre, post, s, heq, hr, hu⟩
  | serve i outcome =>
    cases outcome with
    | user uid =>
      intro request email password userName hi hcall f
      exact .entered f ⟨pre, post, s, heq, hr, request, hi, hcall⟩
    | _ => trivial
  | _ => trivial

theorem separate_run (h : Run (step normalise) (initial stores session) as w)
    (hC : Along (step normalise) (initial stores session) KeepsUser as) :
    Separate normalise stores.accounts (OwnText normalise (initial stores session) as) w := by
  have hboth : Along (step normalise) (initial stores session)
      (fun s a => KeepsUser s a ∧ Admits (OwnText normalise (initial stores session) as) s a) as :=
    fun pre a post s heq hr => ⟨hC pre a post s heq hr, admits_along _ _ _ pre a post s heq hr⟩
  refine h.invariant_along hboth ?_ fun hI hCa hs => separate_step hI .blank hCa.1 hCa.2 hs
  constructor
  case documents => exact fun uid document hu f text hf => .stored hu hf
  case versions => exact fun uid document hu f text hf => .stored (Option.mem_toList.mp hu) hf
  case accounts => exact fun uid account hu => Or.inl hu
  case forms => exact fun d uid hu p hp => absurd hp (by simp [initial, Device.launched])
  case numbered => exact fun d p hp => absurd hp (by simp [initial, Device.launched])
  all_goals exact fun r hr => absurd hr (by simp [initial])

/-- No text of one user gets into the profile of another: as long as nobody else is signed in
behind an open screen, whatever is stored for a user, shown to the user on a profile screen or
on its way to be stored for the user comes from this user, over any number of devices, log-ins
and log-outs and with the requests answered and handled in any order. -/
theorem own_texts (h : Run (step normalise) (initial stores session) as w)
    (hC : Along (step normalise) (initial stores session) KeepsUser as) :
    (∀ uid document f text, w.stores.users uid = some document →
      document.string (TextField.key f) = some text →
      OwnText normalise (initial stores session) as f uid text) ∧
    (∀ uid account, w.stores.accounts uid = some account → stores.accounts uid = some account ∨
      ∃ email, OwnText normalise (initial stores session) as .email uid email ∧
        account = normalise email) ∧
    (∀ d uid id vc f, (w.devices d).currentUser = some uid →
      ⟨id, .profile vc⟩ ∈ (w.devices d).window.stack →
      OwnText normalise (initial stores session) as f uid (f.shown vc)) ∧
    ∀ r ∈ w.requests, OwnCall (OwnText normalise (initial stores session) as) r.call := by
  have hw := separate_run h hC
  exact ⟨fun uid document f text hu hf => hw.documents uid document hu f text hf, hw.accounts,
    fun d uid id vc f hu hp => hw.forms d uid hu ⟨id, .profile vc⟩ hp vc rfl f, hw.calls⟩

/-- The computable form of `KeepsUser`. -/
def checkKeepsUser (w : World) : Act → Bool
  | .serve i (.user uid) => (w.requests[i]?).all fun request =>
      (w.devices request.device).window.stack.isEmpty ||
        (w.devices request.device).currentUser == some uid
  | _ => true

theorem keepsUser_of_check (h : checkKeepsUser w a = true) : KeepsUser w a := by
  cases a with
  | serve i outcome =>
    cases outcome with
    | user uid =>
      intro request hi
      simpa [checkKeepsUser, hi] using h
    | _ => trivial
  | _ => trivial

/-- The user opens the profile, changes the name and saves. -/
def rename : List Act :=
  openProfile ++ [.serve 0 .done, .complete 0, .tap 0 (.editUserName "m"), .tap 0 .updateUserInfo,
    .serve 0 .done]

theorem own_texts_rename : ∃ w, Run (step id) firstLaunch (signUp ++ rename) w ∧
    ∃ document, w.stores.users "u" = some document ∧ document.string "userName" = some "m" ∧
      OwnText id firstLaunch (signUp ++ rename) .userName "u" "m" := by
  have hexec : (exec (step id) firstLaunch (signUp ++ rename)).map
      (fun w => (w.stores.users "u").bind (·.string "userName")) = some (some "m") := rfl
  obtain ⟨w, hw, hname⟩ := run_of_exec_map hexec
  obtain ⟨document, hu, hm⟩ := Option.bind_eq_some_iff.mp hname
  have hkeeps : Along (step id) firstLaunch KeepsUser (signUp ++ rename) :=
    along_of_check (fun _ _ => keepsUser_of_check) (by rfl)
  exact ⟨w, hw, document, hu, hm, (own_texts hw hkeeps).1 "u" document .userName "m" hu hm⟩

/-- Two users sign up on two devices; on the first one the user logs in twice before the first
answer comes, the second time as the other user, and opens the profile meanwhile. -/
def secondLogIn : List Act :=
  signUp ++ [.viewDidAppear 1, .tap 1 (.signupButtonAction "f" "q" "q" "m"), .serve 0 (.user "v"),
    .complete 0, .serve 0 .done, .complete 0, .tap 0 .showSettings, .viewDidAppear 0,
    .tap 0 .logoutButton, .viewDidAppear 0, .tap 0 (.loginButtonAction "e" "p"),
    .tap 0 (.loginButtonAction "f" "q"), .serve 0 (.user "u"), .complete 0, .viewDidAppear 0] ++
  openProfile ++ [.serve 1 .done, .complete 1, .serve 0 (.user "v"), .tap 0 .updateUserInfo,
    .serve 1 .done]

/-- No sign-up of `v` enters the name "n", and no name is typed. -/
def notNamed (w : World) : Act → Bool
  | .serve i (.user "v") => (w.requests[i]?).all fun request =>
      match request.call with
      | .createUser _ _ userName => userName != "n"
      | _ => true
  | .tap _ (.editUserName _) => false
  | _ => true

/-- The answer to the second log-in comes while the profile of the first user is open: a save
then stores the name of the one user for the other. -/
theorem secondLogIn_crosses : ∃ w, Run (step id) firstLaunch secondLogIn w ∧
    (w.stores.users "v").bind (·.string "userName") = some "n" ∧
      ¬ OwnText id firstLaunch secondLogIn .userName "v" "n" := by
  have hexec : (exec (step id) firstLaunch secondLogIn).map
      (fun w => (w.stores.users "v").bind (·.string "userName")) = some (some "n") := rfl
  obtain ⟨w, hw, hname⟩ := run_of_exec_map hexec
  refine ⟨w, hw, hname, fun hown => ?_⟩
  have hnot : Along (step id) firstLaunch (fun w a => notNamed w a = true) secondLogIn :=
    along_of_check (fun _ _ h => h) (by rfl)
  generalize htext : "n" = text at hown
  cases hown with
  | blank => simp at htext
  | stored document_of text_of => simp [firstLaunch, initial, Stores.empty] at document_of
  | entered signedUp =>
    obtain ⟨pre, post, s, heq, hr, request, hi, hcall⟩ := signedUp
    have hcheck := hnot pre _ post s heq hr
    simp [notNamed, hi, hcall] at hcheck
    exact hcheck htext.symm
  | typed typed =>
    obtain ⟨pre, post, s, heq, hr, -⟩ := typed
    have hcheck := hnot pre _ post s heq hr
    simp [notNamed, TextField.edit] at hcheck

end AppSystem

end LoopChat
