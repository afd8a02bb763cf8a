import LoopChat.PairedRequests

/-!
# The two copies of the email

A sign-up stores one email twice, in Auth and in the user's document. A save sends the text of
one field to both stores, in two requests that succeed or fail on their own.
-/
namespace LoopChat
open FirebaseValues NavigationWindow

/-- Where an account has a document, the document's email is the account's, up to the way
Auth spells it. -/
def Stores.EmailsAgree (normalise : String → String) (st : Stores) : Prop :=
  ∀ uid document account, st.users uid = some document → st.accounts uid = some account →
    ∃ email, document.string "email" = some email ∧ normalise email = account

/-- The email that a save sends to the document of `uid`. -/
def Call.documentEmail (uid : String) : Call → Option String
  | .updateData u fields => if u = uid then fields.string "email" else none
  | _ => none

/-- The email that a save sends to the account `uid`. -/
def Call.accountEmail (uid : String) : Call → Option String
  | .updateEmail u email => if u = uid then some email else none
  | _ => none

/-- Two requests of saves to the same place. -/
def Call.sameSave : Call → Call → Bool
  | .updateData u _, .updateData v _ | .updateEmail u _, .updateEmail v _ => u == v
  | _, _ => false

namespace AppSystem
open TransitionRuns

/-- The two requests of a save are answered alike, and each store takes its requests in the order
in which they were made. -/
def SavedInOrder (accept : ℕ → Bool) (w : World) : Act → Prop
  | .serve i outcome => ∀ request, w.requests[i]? = some request →
    request.call.sameSave request.call = true → AnsweredAlike accept w request outcome ∧
      (outcome = .done → ∀ r ∈ w.requests.take i, r.Granted accept →
        r.call.sameSave request.call = false)
  | _ => True

def granted (accept : ℕ → Bool) (f : Call → Option String) (r : Request) : Option String :=
  if r.Granted accept then f r.call else none

/-- The email that the document of `uid` has, or is to be written with by the sign-up. -/
inductive ProfileEmail (st : Stores) (requests : List Request) (uid email : String) : Prop
  | stored (document : FirebaseValues.Fields) (at_uid : st.users uid = some document)
      (has_email : document.string "email" = some email)
  | storing (r : Request) (mem : r ∈ requests) (waiting : r.answer = none)
      (document : FirebaseValues.Fields) (sets : r.call = .setData uid document)
      (has_email : document.string "email" = some email)
  | creating (r : Request) (mem : r ∈ requests) (answered : r.answer = some (.user uid))
      (password userName : String) (creates : r.call = .createUser email password userName)

/-- After the granted saves of `uid`, what was `email` in the document and `account` in Auth are the
same to Auth. -/
def EmailsMeet (normalise : String → String) (accept : ℕ → Bool) (requests : List Request)
    (uid email account : String) : Prop :=
  normalise ((lastOf (granted accept (Call.documentEmail uid)) requests).getD email) =
    ((lastOf (granted accept (Call.accountEmail uid)) requests).map normalise).getD account

/-- Wherever a profile has an email and an account, the two meet; for a uid that is not handed out
yet nothing is granted to one place alone. -/
structure EmailsFollow (normalise : String → String) (accept : ℕ → Bool) (st : Stores)
    (requests : List Request) (uid : String) : Prop where
  agree : ∀ email account, ProfileEmail st requests uid email → st.accounts uid = some account →
    EmailsMeet normalise accept requests uid email account
  alike : uid ∉ st.issued → lastOf (granted accept (Call.documentEmail uid)) requests =
    lastOf (granted accept (Call.accountEmail uid)) requests

variable {normalise : String → String} {load : String → Option (Option Snapshot)}
  {session : ℕ → Option String} {accept : ℕ → Bool} {w w' : World} {a : Act} {as : List Act}
  {uid email : String} {requests before after new : List Request} {request r : Request}
  {answer : Answer} {outcome : Outcome} {st stores : Stores} {call : Call}
  {f : Call → Option String}

theorem documentEmail_eq_some : call.documentEmail uid = some email ↔
    ∃ fields, call = .updateData uid fields ∧ fields.string "email" = some email := by
  cases call <;> simp [Call.documentEmail]

theorem accountEmail_eq_some :
    call.accountEmail uid = some email ↔ call = .updateEmail uid email := by
  cases call <;> simp [Call.accountEmail]

/-- The function reads the emails that are sent to one place. -/
structure ReadsPlace (f : Call → Option String) : Prop where
  same : ∀ {call call' : Call} {email email' : String}, f call = some email →
    f call' = some email' → call.sameSave call' = true
  paired : ∀ {call : Call} {email : String}, f call = some email → call.paired = true

theorem readsPlace_document (uid : String) : ReadsPlace (Call.documentEmail uid) where
  same := by
    intro call call' email email' h h'
    obtain ⟨_, rfl, -⟩ := documentEmail_eq_some.mp h
    obtain ⟨_, rfl, -⟩ := documentEmail_eq_some.mp h'
    exact beq_self_eq_true uid
  paired := by
    intro call email h
    obtain ⟨_, rfl, -⟩ := documentEmail_eq_some.mp h
    rfl

theorem readsPlace_account (uid : String) : ReadsPlace (Call.accountEmail uid) where
  same := by
    intro call call' email email' h h'
    rw [accountEmail_eq_some.mp h, accountEmail_eq_some.mp h']
    exact beq_self_eq_true uid
  paired := by
    intro call email h
    rw [accountEmail_eq_some.mp h]
    rfl

theorem granted_eq_some :
    granted accept f r = some email ↔ r.Granted accept ∧ f r.call = some email := by
  unfold granted
  split_ifs with h <;> simp [h]

theorem granted_of_answered (answered : r.answer = some answer) : granted accept f r = none := by
  simp [granted, Request.Granted, answered]

theorem lastOf_granted_answered (answered : request.answer = some answer) :
    lastOf (granted accept f) (before ++ request :: after) =
      lastOf (granted accept f) (before ++ after) :=
  lastOf_remove (granted_of_answered answered)

/-! ### The email of a profile -/

theorem ProfileEmail.mono (h : ProfileEmail st requests uid email) (hsub : requests ⊆ new) :
    ProfileEmail st new uid email := by
  cases h with
  | stored document hd he => exact .stored document hd he
  | storing r hr hw document hc he => exact .storing r (hsub hr) hw document hc he
  | creating r hr ha password userName hc => exact .creating r (hsub hr) ha password userName hc

/-- A profile has an email only where its document is, or is still to be written. -/
theorem ProfileEmail.document_or_unwritten (h : ProfileEmail st requests uid email) :
    (st.users uid).isSome ∨ Unwritten requests uid := by
  cases h with
  | stored document hd he => exact Or.inl (by simp [hd])
  | storing r hr hw document hc he =>
    exact Or.inr ⟨r, hr, Or.inr (by simp [AppSystem.storing, AppSystem.stored, hw, hc])⟩
  | creating r hr ha password userName hc =>
    exact Or.inr ⟨r, hr, Or.inl (by simp [AppSystem.creating, hc, ha])⟩

theorem ProfileEmail.issued (h : ProfileEmail w.stores w.requests uid email) (hl : Ledger w) :
    uid ∈ w.stores.issued :=
  h.document_or_unwritten.elim (fun hd => hl.issued_of_stored (hl.document uid hd))
    hl.issued_of_unwritten

theorem ProfileEmail.not_gone (h : ProfileEmail w.stores w.requests uid email) :
    ¬ w.ProfileGone uid := by
  rintro ⟨-, hnone, hun⟩
  rcases h.document_or_unwritten with hd | hw
  · simp [hnone] at hd
  · exact hun hw

section Served

variable (at_i : w.requests = before ++ request :: after)
  (serve : Stores.Effect normalise load w.stores request.call outcome answer stores)

include at_i serve

/-- Where the email of a profile comes from when a request is served. -/
theorem profileEmail_served (waiting : request.answer = none) (hl : Ledger w)
    (hp : ProfilesComplete w)
    (h : ProfileEmail stores (before ++ { request with answer := some answer } :: after) uid
      email) :
    (∃ password userName, request.call = .createUser email password userName ∧
      answer = .user uid) ∨
    (∃ fields old, request.call = .updateData uid fields ∧ answer = .done ∧
      fields.string "email" = some email ∧ ProfileEmail w.stores w.requests uid old) ∨
    (ProfileEmail w.stores w.requests uid email ∧
      ∀ fields, ¬ (request.call = .updateData uid fields ∧ answer = .done)) := by
  have hmem : request ∈ w.requests := by simp [at_i]
  -- an update finds a document, so none is to be written any more
  have hunwritten : Unwritten w.requests uid →
      ∀ fields, ¬ (request.call = .updateData uid fields ∧ answer = .done) := by
    rintro hun fields ⟨hcall, rfl⟩
    rw [hcall] at serve
    cases serve with
    | documentUpdated fields exists_at =>
      exact hl.not_unwritten (hl.document uid (by simp [exists_at])) hun
  cases h with
  | stored document hd he =>
    rcases serve.document_cases hd with ⟨hcall, rfl⟩ | ⟨old, fields, hcall, rfl, hold, rfl⟩ |
      ⟨hold, hno⟩
    · exact Or.inr (Or.inr ⟨.storing request hmem waiting document hcall he, by simp [hcall]⟩)
    · obtain ⟨email', hemail'⟩ := (hp.stored uid old hold).email
      have hwrites := hp.requested request hmem
      rw [hcall] at hwrites
      obtain ⟨name, saved, rfl⟩ := hwrites
      exact Or.inr (Or.inl ⟨_, email', hcall, rfl, he, .stored old hold hemail'⟩)
    · exact Or.inr (Or.inr ⟨.stored document hold he, hno⟩)
  | storing r hr hw document hc he =>
    rcases mem_answered hr with hr | rfl
    · have hbefore : ProfileEmail w.stores w.requests uid email :=
        .storing r (at_i ▸ hr) hw document hc he
      have hun : Unwritten w.requests uid :=
        ⟨r, at_i ▸ hr, Or.inr (by simp [storing, stored, hw, hc])⟩
      exact Or.inr (Or.inr ⟨hbefore, hunwritten hun⟩)
    · cases hw
  | creating r hr ha password userName hc =>
    rcases mem_answered hr with hr | rfl
    · have hbefore : ProfileEmail w.stores w.requests uid email :=
        .creating r (at_i ▸ hr) ha password userName hc
      have hun : Unwritten w.requests uid :=
        ⟨r, at_i ▸ hr, Or.inl (by simp [creating, hc, ha])⟩
      exact Or.inr (Or.inr ⟨hbefore, hunwritten hun⟩)
    · exact Or.inl ⟨password, userName, hc, Option.some.inj ha⟩

/-- A granted save whose place is there succeeds. -/
theorem granted_none (hf : ReadsPlace f) (hC : SavedInOrder accept w (.serve before.length outcome))
    (hthere : f request.call ≠ none → ¬ w.Missing request.call)
    (hno : f request.call ≠ none → answer ≠ .done) : granted accept f request = none := by
  by_contra hne
  obtain ⟨email, hsome⟩ := Option.ne_none_iff_exists'.mp hne
  obtain ⟨⟨-, hacc⟩, hemail⟩ := granted_eq_some.mp hsome
  have hsave : f request.call ≠ none := by simp [hemail]
  obtain ⟨hsame, -⟩ := hC request (by simp [at_i]) (hf.same hemail hemail)
  have hdone : outcome = .done := (hsame.resolve_left (hthere hsave)).mpr hacc
  exact hno hsave ((paired_answer serve (hf.paired hemail)).mpr hdone)

/-- A save that succeeds was granted, and before all others of its place. -/
theorem lastOf_done (hf : ReadsPlace f) (waiting : request.answer = none)
    (hC : SavedInOrder accept w (.serve before.length outcome))
    (hemail : f request.call = some email) (hthere : ¬ w.Missing request.call)
    (hdone : answer = .done) : lastOf (granted accept f) w.requests =
      (lastOf (granted accept f) (before ++ after)).or (some email) := by
  obtain ⟨hsame, horder⟩ := hC request (by simp [at_i]) (hf.same hemail hemail)
  have hout := (paired_answer serve (hf.paired hemail)).mp hdone
  have hrequest : granted accept f request = some email :=
    granted_eq_some.mpr ⟨⟨waiting, (hsame.resolve_left hthere).mp hout⟩, hemail⟩
  rw [at_i, lastOf_first fun r hr => ?_, hrequest]
  by_contra hne
  obtain ⟨email', hsome⟩ := Option.ne_none_iff_exists'.mp hne
  obtain ⟨hgranted, hemail'⟩ := granted_eq_some.mp hsome
  have hother := horder hout r (by simpa [at_i] using hr) hgranted
  rw [hf.same hemail' hemail] at hother
  cases hother

/-- The emails granted to the document, where the request does not save it. -/
theorem lastOf_document_kept (hC : SavedInOrder accept w (.serve before.length outcome))
    (hthere : ¬ w.ProfileGone uid)
    (hno : ∀ fields, ¬ (request.call = .updateData uid fields ∧ answer = .done)) :
    lastOf (granted accept (Call.documentEmail uid)) w.requests =
      lastOf (granted accept (Call.documentEmail uid)) (before ++ after) := by
  have hcall : request.call.documentEmail uid ≠ none →
      ∃ fields, request.call = .updateData uid fields := fun hne => by
    obtain ⟨email, hsome⟩ := Option.ne_none_iff_exists'.mp hne
    obtain ⟨fields, hcall, -⟩ := documentEmail_eq_some.mp hsome
    exact ⟨fields, hcall⟩
  rw [at_i, lastOf_remove (granted_none at_i serve (readsPlace_document uid) hC ?_ ?_)]
  · intro hsave
    obtain ⟨fields, hcall⟩ := hcall hsave
    rwa [hcall]
  · intro hsave hdone
    obtain ⟨fields, hcall⟩ := hcall hsave
    exact hno fields ⟨hcall, hdone⟩

theorem lastOf_account_kept (hC : SavedInOrder accept w (.serve before.length outcome))
    (hthere : ¬ w.AccountGone uid)
    (hno : ∀ email, ¬ (request.call = .updateEmail uid email ∧ answer = .done)) :
    lastOf (granted accept (Call.accountEmail uid)) w.requests =
      lastOf (granted accept (Call.accountEmail uid)) (before ++ after) := by
  have hcall : request.call.accountEmail uid ≠ none →
      ∃ email, request.call = .updateEmail uid email := fun hne => by
    obtain ⟨email, hsome⟩ := Option.ne_none_iff_exists'.mp hne
    exact ⟨email, accountEmail_eq_some.mp hsome⟩
  rw [at_i, lastOf_remove (granted_none at_i serve (readsPlace_account uid) hC ?_ ?_)]
  · intro hsave
    obtain ⟨email, hcall⟩ := hcall hsave
    rwa [hcall]
  · intro hsave hdone
    obtain ⟨email, hcall⟩ := hcall hsave
    exact hno email ⟨hcall, hdone⟩

/-- A new account: what is granted for it already is granted alike in both places. -/
theorem emailsMeet_created (h : EmailsFollow normalise accept w.stores w.requests uid)
    (hC : SavedInOrder accept w (.serve before.length outcome)) {password userName : String}
    (hcall : request.call = .createUser email password userName) (hdone : answer = .user uid) :
    EmailsMeet normalise accept (before ++ after) uid email (normalise email) := by
  have hfresh := serve.fresh ⟨email, password, userName, hcall, hdone⟩
  have halike := h.alike hfresh
  rw [lastOf_document_kept at_i serve hC (fun hgone => hfresh hgone.1) (by simp [hcall]),
    lastOf_account_kept at_i serve hC (fun hgone => hfresh hgone.1) (by simp [hcall])] at halike
  rw [EmailsMeet, halike, Option.getD_map]

/-- A save of the account, whose email is that of the request from now on. -/
theorem emailsMeet_account_saved (waiting : request.answer = none)
    (hC : SavedInOrder accept w (.serve before.length outcome)) {account saved : String}
    (h : EmailsMeet normalise accept w.requests uid email account)
    (hcall : request.call = .updateEmail uid saved) (hdone : answer = .done)
    (hthere : ¬ w.AccountGone uid) (hprofile : ¬ w.ProfileGone uid) :
    EmailsMeet normalise accept (before ++ after) uid email (normalise saved) := by
  rw [EmailsMeet, lastOf_document_kept at_i serve hC hprofile (by simp [hcall]),
    lastOf_done at_i serve (readsPlace_account uid) waiting hC (accountEmail_eq_some.mpr hcall)
      (by rwa [hcall]) hdone] at h
  unfold EmailsMeet
  cases hlast : lastOf (granted accept (Call.accountEmail uid)) (before ++ after) <;>
    simpa [hlast] using h

/-- A save of the document. -/
theorem emailsMeet_document_saved (waiting : request.answer = none)
    (hC : SavedInOrder accept w (.serve before.length outcome)) {account saved : String}
    {fields : FirebaseValues.Fields} (h : EmailsMeet normalise accept w.requests uid email account)
    (hcall : request.call = .updateData uid fields) (hdone : answer = .done)
    (hsaved : fields.string "email" = some saved) (hthere : ¬ w.AccountGone uid)
    (hprofile : ¬ w.ProfileGone uid) :
    EmailsMeet normalise accept (before ++ after) uid saved account := by
  rw [EmailsMeet, lastOf_account_kept at_i serve hC hthere (by simp [hcall]),
    lastOf_done at_i serve (readsPlace_document uid) waiting hC
      (documentEmail_eq_some.mpr ⟨fields, hcall, hsaved⟩) (by rwa [hcall]) hdone] at h
  unfold EmailsMeet
  cases hlast : lastOf (granted accept (Call.documentEmail uid)) (before ++ after) <;>
    simpa [hlast] using h

/-- A uid that is not handed out yet has nothing that a save could change. -/
theorem saves_alike_served (hl : Ledger w)
    (h : EmailsFollow normalise accept w.stores w.requests uid)
    (hC : SavedInOrder accept w (.serve before.length outcome)) (hu : uid ∉ w.stores.issued) :
    lastOf (granted accept (Call.documentEmail uid)) (before ++ after) =
      lastOf (granted accept (Call.accountEmail uid)) (before ++ after) := by
  have hnodocument : ∀ fields, ¬ (request.call = .updateData uid fields ∧ answer = .done) := by
    rintro fields ⟨hcall, rfl⟩
    rw [hcall] at serve
    cases serve with
    | documentUpdated fields exists_at =>
      exact hu (hl.issued_of_stored (hl.document uid (by simp [exists_at])))
  have hnoaccount : ∀ email, ¬ (request.call = .updateEmail uid email ∧ answer = .done) := by
    rintro email ⟨hcall, rfl⟩
    rw [hcall] at serve
    cases serve with
    | @emailUpdated _ old _ existing => exact hu (w.stores.accounts_issued uid old existing)
  have halike := h.alike hu
  rwa [lastOf_document_kept at_i serve hC (fun hgone => hu hgone.1) hnodocument,
    lastOf_account_kept at_i serve hC (fun hgone => hu hgone.1) hnoaccount] at halike

theorem EmailsFollow.served (h : EmailsFollow normalise accept w.stores w.requests uid)
    (waiting : request.answer = none) (hl : Ledger w) (hp : ProfilesComplete w)
    (hC : SavedInOrder accept w (.serve before.length outcome)) :
    EmailsFollow normalise accept stores
      (before ++ { request with answer := some answer } :: after) uid := by
  constructor
  · intro email account hprofile haccount
    have hfrom := profileEmail_served at_i serve waiting hl hp hprofile
    rw [EmailsMeet, lastOf_granted_answered rfl, lastOf_granted_answered rfl]
    rcases serve.account_cases haccount with ⟨e, password, userName, hcall, hdone, rfl⟩ |
      ⟨old, e, hcall, hdone, hold, rfl⟩ | ⟨hold, hno⟩
    · rcases hfrom with ⟨_, _, hcall', -⟩ | ⟨fields, _, hcall', -⟩ | ⟨hbefore, -⟩
      · obtain ⟨rfl, -⟩ := Call.createUser.inj (hcall.symm.trans hcall')
        exact emailsMeet_created at_i serve h hC hcall hdone
      · cases hcall.symm.trans hcall'
      · exact absurd (hbefore.issued hl) (serve.fresh ⟨e, password, userName, hcall, hdone⟩)
    · have hthere : ¬ w.AccountGone uid := by simp [World.AccountGone, hold]
      rcases hfrom with ⟨_, _, hcall', -⟩ | ⟨fields, _, hcall', -⟩ | ⟨hbefore, -⟩
      · cases hcall.symm.trans hcall'
      · cases hcall.symm.trans hcall'
      · exact emailsMeet_account_saved at_i serve waiting hC (h.agree email old hbefore hold)
          hcall hdone hthere hbefore.not_gone
    · have hthere : ¬ w.AccountGone uid := by simp [World.AccountGone, hold]
      rcases hfrom with ⟨password, userName, hcall, hdone⟩ |
        ⟨fields, e, hcall, hdone, he, hbefore⟩ | ⟨hbefore, hnodocument⟩
      · exact absurd (w.stores.accounts_issued uid account hold)
          (serve.fresh ⟨email, password, userName, hcall, hdone⟩)
      · exact emailsMeet_document_saved at_i serve waiting hC (h.agree e account hbefore hold)
          hcall hdone he hthere hbefore.not_gone
      · have hagree := h.agree email account hbefore hold
        rwa [EmailsMeet, lastOf_account_kept at_i serve hC hthere hno,
          lastOf_document_kept at_i serve hC hbefore.not_gone hnodocument] at hagree
  · intro hu
    rw [serve.issued, not_or] at hu
    rw [lastOf_granted_answered rfl, lastOf_granted_answered rfl]
    exact saves_alike_served at_i serve hl h hC hu.1

end Served

/-! ### New requests -/

/-- Requests that save both emails alike, and none of a profile, change nothing. -/
theorem EmailsFollow.append (h : EmailsFollow normalise accept st requests uid)
    (hsaves : lastOf (granted accept (Call.documentEmail uid)) new =
      lastOf (granted accept (Call.accountEmail uid)) new)
    (hprofile : ∀ email, ProfileEmail st (requests ++ new) uid email →
      ProfileEmail st requests uid email) :
    EmailsFollow normalise accept st (requests ++ new) uid where
  agree := by
    intro email account hnew haccount
    have hagree := h.agree email account (hprofile email hnew) haccount
    unfold EmailsMeet at hagree ⊢
    rw [lastOf_append, lastOf_append, hsaves]
    cases hlast : lastOf (granted accept (Call.accountEmail uid)) new with
    | none => simpa using hagree
    | some saved => simp
  alike := by
    intro hu
    rw [lastOf_append, lastOf_append, hsaves, h.alike hu]

theorem profileEmail_append (hnew : ∀ r ∈ new, r.answer = none ∧ UserCall r.call)
    (h : ProfileEmail st (requests ++ new) uid email) : ProfileEmail st requests uid email := by
  cases h with
  | stored document hd he => exact .stored document hd he
  | storing r hr hw document hc he =>
    rcases List.mem_append.mp hr with hr | hr
    · exact .storing r hr hw document hc he
    · have huser := (hnew r hr).2
      rw [hc] at huser
      cases huser
  | creating r hr ha password userName hc =>
    rcases List.mem_append.mp hr with hr | hr
    · exact .creating r hr ha password userName hc
    · simp [(hnew r hr).1] at ha

theorem lastOf_unpaired (hf : ReadsPlace f) (hnew : ∀ r ∈ new, r.call.paired = false) :
    lastOf (granted accept f) new = none := by
  refine lastOf_eq_none.mpr fun r hr => ?_
  by_contra hne
  obtain ⟨email, hsome⟩ := Option.ne_none_iff_exists'.mp hne
  simpa [hnew r hr] using hf.paired (granted_eq_some.mp hsome).2

/-- A tap saves one email in both places, or none. -/
theorem saves_of_tap {n d : ℕ} {dev : Device} {t : Tap} {reaction : Reaction}
    (ht : Device.TapEffect dev t reaction) :
    lastOf (granted accept (Call.documentEmail uid)) (made n d reaction) =
      lastOf (granted accept (Call.accountEmail uid)) (made n d reaction) := by
  rcases made_tap_pairs (n := n) (d := d) ht with ⟨u, name, email, hmade⟩ | ⟨u, hmade⟩ | hno
  · have hemail : (UserProfileVC.updateFields name email).string "email" = some email := rfl
    simp only [hmade, lastOf, List.filterMap_cons, List.filterMap_nil, granted, Request.Granted,
      Call.documentEmail, Call.accountEmail, hemail]
    by_cases hu : u = uid <;> by_cases hacc : accept n = true <;> simp [hu, hacc]
  · simp [hmade, lastOf, granted, Call.documentEmail, Call.accountEmail]
  · rw [lastOf_unpaired (readsPlace_document uid) hno, lastOf_unpaired (readsPlace_account uid) hno]

/-- The handler of a sign-up gives the document the email of the account. -/
theorem profileEmail_completed {n d : ℕ} {dev : Device} {issuer : Option ℕ} {reaction : Reaction}
    (answered : request.answer = some answer)
    (hc : Device.CompleteEffect dev issuer request.call answer reaction)
    (h : ProfileEmail st (before ++ after ++ made n d reaction) uid email) :
    ProfileEmail st (before ++ request :: after) uid email := by
  rcases made_complete (n := n) (d := d) hc with
    ⟨e, password, userName, u, hcall, rfl, hmade⟩ | ⟨hmade, -⟩
  · rw [hmade] at h
    cases h with
    | stored document hd he => exact .stored document hd he
    | storing r hr hw document hr' he =>
      rcases List.mem_append.mp hr with hr | hr
      · exact .storing r (remaining_subset hr) hw document hr' he
      · obtain rfl := List.mem_singleton.mp hr
        obtain ⟨rfl, rfl⟩ := Call.setData.inj hr'
        obtain rfl := Option.some.inj he
        exact .creating request (by simp) answered password userName hcall
    | creating r hr ha password userName hr' =>
      rcases List.mem_append.mp hr with hr | hr
      · exact .creating r (remaining_subset hr) ha password userName hr'
      · obtain rfl := List.mem_singleton.mp hr
        cases ha
  · rw [hmade, List.append_nil] at h
    exact h.mono remaining_subset

theorem emailsFollow_step (h : EmailsFollow normalise accept w.stores w.requests uid)
    (hl : Ledger w) (hp : ProfilesComplete w) (hC : SavedInOrder accept w a)
    (hs : step normalise w a = some w') :
    EmailsFollow normalise accept w'.stores w'.requests uid := by
  cases step_effect hs with
  | tapped tapped =>
    have heffect := Device.tap_effect tapped
    exact h.append (saves_of_tap heffect)
      fun email => profileEmail_append fun r hr => tap_userCall heffect hr
  | appeared appeared =>
    refine h.append ?_ fun email => profileEmail_append fun r hr =>
      viewDidAppear_userCall appeared hr
    rw [lastOf_unpaired (readsPlace_document uid) (unpaired_of_appearance appeared),
      lastOf_unpaired (readsPlace_account uid) (unpaired_of_appearance appeared)]
  | served at_i waiting serve => exact h.served at_i serve waiting hl hp hC
  | @completed before after request answer at_i answered running =>
    have hcomplete := Device.complete_effect (w.devices request.device) request.issuer
      request.call answer
    have hlast : ∀ f, ReadsPlace f → lastOf (granted accept f) (before ++ after ++
        made w.reactions request.device ((w.devices request.device).complete request.issuer
          request.call answer)) = lastOf (granted accept f) w.requests := by
      intro f hf
      rw [lastOf_append, lastOf_unpaired hf (unpaired_of_complete hcomplete), Option.none_or, at_i,
        lastOf_granted_answered answered]
    constructor
    · intro email account hprofile haccount
      have hbefore := profileEmail_completed answered hcomplete hprofile
      rw [World.follow, EmailsMeet, hlast _ (readsPlace_document uid),
        hlast _ (readsPlace_account uid)]
      exact h.agree email account (at_i ▸ hbefore) haccount
    · intro hu
      rw [World.follow, hlast _ (readsPlace_document uid), hlast _ (readsPlace_account uid)]
      exact h.alike hu
  | signedOut d => exact h

/-- In a run in which the two requests of each save are answered alike, and each store takes the
saves in the order in which they were made, the emails agree whenever no request is outstanding. -/
theorem emails_agree (accept : ℕ → Bool) (h : Run (step normalise) (initial .empty session) as w)
    (hC : Along (step normalise) (initial .empty session) (SavedInOrder accept) as)
    (quiet : w.Quiet) : w.stores.EmailsAgree normalise := by
  have hall : Ledger w ∧ ProfilesComplete w ∧
      ∀ uid, EmailsFollow normalise accept w.stores w.requests uid := by
    refine h.invariant_along (I := fun w => Ledger w ∧ ProfilesComplete w ∧
      ∀ uid, EmailsFollow normalise accept w.stores w.requests uid) hC ?_ ?_
    · exact ⟨ledger_initial session, profilesComplete_initial session, fun uid =>
        ⟨by simp [initial, Stores.empty], by simp [initial, lastOf]⟩⟩
    · rintro t a u ⟨hl, hp, he⟩ hCa hs
      exact ⟨ledger_step hl hs, profilesComplete_step hp hs,
        fun uid => emailsFollow_step (he uid) hl hp hCa hs⟩
  obtain ⟨-, hp, hfollow⟩ := hall
  intro uid document account hd ha
  have hnone : ∀ f, lastOf (granted accept f) w.requests = none := by
    refine fun f => lastOf_eq_none.mpr fun r hr => ?_
    simp [granted, Request.Granted, (quiet r hr).1]
  obtain ⟨email, hemail⟩ := (hp.stored uid document hd).email
  have hagree := (hfollow uid).agree email account (.stored document hd hemail) ha
  rw [EmailsMeet, hnone, hnone] at hagree
  exact ⟨email, hemail, hagree⟩

/-- A check of the condition that leaves out requests that find nothing to change. -/
def checkSaves (accept : ℕ → Bool) (w : World) : Act → Bool
  | .serve i outcome => (w.requests[i]?).all fun request =>
    !request.call.sameSave request.call || ((outcome == .done) == accept request.reaction &&
      (w.requests.take i).all fun r =>
        !(r.answer.isNone && accept r.reaction && r.call.sameSave request.call))
  | _ => true

theorem savedInOrder_of_check (h : checkSaves accept w a = true) : SavedInOrder accept w a := by
  cases a with
  | serve i outcome =>
    intro request hi hsave
    rw [checkSaves, hi, Option.all_some, hsave, Bool.not_true, Bool.false_or, Bool.and_eq_true] at h
    refine ⟨Or.inr (by rw [← beq_iff_eq.mp h.1, beq_iff_eq]), fun _ r hr hgranted => ?_⟩
    simpa [hgranted.1, hgranted.2] using List.all_eq_true.mp h.2 r hr
  | _ => trivial

/-- Three saves: both stores refuse the first one, and take the two others in their order, the
document before the account. -/
def threeSaves : List Act :=
  signUp ++ openProfile ++ [.serve 0 .done, .complete 0, .tap 0 (.editEmail ""),
    .tap 0 .updateUserInfo, .tap 0 (.editEmail "f"), .tap 0 .updateUserInfo,
    .tap 0 (.editEmail "g"), .tap 0 .updateUserInfo, .serve 0 .failed, .serve 2 .done,
    .serve 4 .done, .serve 1 .failed, .serve 3 .done, .serve 5 .done, .complete 0, .complete 0,
    .complete 0, .complete 0, .complete 0, .complete 0]

theorem threeSaves_emails_agree :
    ∃ w, Run (step id) firstLaunch threeSaves w ∧ w.stores.EmailsAgree id := by
  have hend : (exec (step id) firstLaunch threeSaves).map (fun w => w.requests.length) =
      some 0 := rfl
  obtain ⟨w, hw, hreq⟩ := run_of_exec_map hend
  refine ⟨w, hw, emails_agree (fun reaction => reaction != 11) hw ?_ ?_⟩
  · exact along_of_check (fun _ _ => savedInOrder_of_check) rfl
  · simp [World.Quiet, List.length_eq_zero_iff.mp hreq]

/-- A save with an empty email field, which Firestore takes and Auth refuses. -/
def emptyEmailSave : List Act :=
  signUp ++ openProfile ++ [.serve 0 .done, .complete 0, .tap 0 (.editEmail ""),
    .tap 0 .updateUserInfo, .serve 0 .done, .serve 1 .failed, .complete 0, .complete 0]

theorem emptyEmailSave_disagrees : ¬ ∀ normalise session as w,
    Run (step normalise) (initial .empty session) as w → w.Quiet →
      w.stores.EmailsAgree normalise := by
  intro hall
  have hend : (exec (step id) firstLaunch emptyEmailSave).map (fun w =>
      (w.requests.length, w.stores.accounts "u",
        (w.stores.users "u").map fun document => document.string "email")) =
      some (0, some "e", some (some "")) := rfl
  obtain ⟨w, hw, heq⟩ := run_of_exec_map hend
  obtain ⟨hreq, haccount, huser⟩ := by simpa only [Prod.mk.injEq] using heq
  obtain ⟨document, hd, hemail⟩ := Option.map_eq_some_iff.mp huser
  obtain ⟨email, he, hnorm⟩ := hall id _ emptyEmailSave w hw
    (by simp [World.Quiet, List.length_eq_zero_iff.mp hreq]) "u" document "e" hd haccount
  rw [hemail] at he
  obtain rfl := Option.some.inj he
  simp at hnorm

end AppSystem

end LoopChat
