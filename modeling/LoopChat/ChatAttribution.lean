import LoopChat.ChatIntegrity

/-!
# Whose name a message carries

The sender id is read at the tap, the sender name is `userName1`, filled by the answer to an
earlier `getDocument`. A message is attributed when its name was the stored name of its
sender at some moment up to the tap.
-/
namespace LoopChat.ChatSystem
open FirebaseValues ChildFeed TransitionRuns

/-- `userName` of the document `Users/<uid>`. -/
def storedName (w : World) (uid : String) : Option String :=
  Snapshot.string (w.users uid) "userName"

/-- The child `value` under `key` was written by a tap on send, and no later than that tap
`Users/<SenderID>` held its `SenderName`. -/
def Attributed (w₀ : World) (as : List Act) (key : String) (value : Value) : Prop :=
  ∃ s name userid text pre post, as = pre ++ .sendMessageAction s key :: post ∧
    value = .dict (dataArray name userid text) ∧
    Once step w₀ pre fun w => storedName w userid = some name

/-- A request of screen `s` whose completion has run. -/
def AnsweredFor (w : World) (s : ℕ) (request : NameRequest) : Prop :=
  request ∈ w.nameRequests ∧ request.screen = s ∧ request.handled = true

/-- A tap on send comes after an answer to the screen's name request, every answer the screen got
was for the account that is signed in at the tap, and no name is loaded while a write of the
document by the same client is unanswered. -/
structure NameKnown (w : World) (a : Act) : Prop where
  answered : ∀ s key, a = .sendMessageAction s key → ∀ screen userid, w.screens[s]? = some screen →
    w.currentUser screen.client = some userid →
    (∃ request, AnsweredFor w s request) ∧
      ∀ request, AnsweredFor w s request → request.userid = userid
  settled : ∀ i own source, a = .nameServed i own source → own = []

/-- The cached name of a screen is the placeholder until an answer was handled, and from
then on the name in one of the answered documents. -/
structure NamesCached (w : World) : Prop where
  screen_lt : ∀ request ∈ w.nameRequests, request.screen < w.screens.length
  cached : ∀ s screen, w.screens[s]? = some screen →
    (screen.vc.userName1 = "" ∧ ∀ request, ¬ AnsweredFor w s request) ∨
      ∃ request document, AnsweredFor w s request ∧
        request.answer = some (some (some document)) ∧
        Fields.string document "userName" = some screen.vc.userName1

/-- A step that leaves the requests, the number of screens and the cached names alone. -/
theorem NamesCached.congr {w w' : World} (h : NamesCached w)
    (hr : w'.nameRequests = w.nameRequests)
    (hv : (w'.screens.map fun x => x.vc.userName1) = w.screens.map fun x => x.vc.userName1) :
    NamesCached w' := by
  have hlen : w'.screens.length = w.screens.length := by
    simpa using congrArg List.length hv
  constructor
  · rw [hr, hlen]
    exact h.screen_lt
  · intro s screen' hs'
    have hs := congrArg (fun l => l[s]?) hv
    simp only [List.getElem?_map, hs', Option.map_some] at hs
    obtain ⟨screen, hs, hname⟩ := Option.map_eq_some_iff.mp hs.symm
    simp only [AnsweredFor, hr, ← hname]
    exact h.cached s screen hs

theorem mem_set_of_ne {α : Type*} {l : List α} {i : ℕ} {x x' a : α} (hi : l[i]? = some x)
    (ha : a ∈ l) (hne : a ≠ x) : a ∈ l.set i x' := by
  obtain ⟨j, hj⟩ := List.mem_iff_getElem?.mp ha
  have hij : i ≠ j := by
    rintro rfl
    exact hne (Option.some.inj (hj.symm.trans hi))
  exact List.mem_of_getElem? (by rw [List.getElem?_set_ne hij]; exact hj)

/-- A new screen has asked for no name. -/
theorem NamesCached.opened {w : World} (h : NamesCached w) (client : ℕ) (community : Community) :
    NamesCached { w with screens := w.screens ++
      [⟨client, { community := some community }, false⟩] } := by
  constructor
  · intro request hr
    have := h.screen_lt request hr
    simp only [List.length_append, List.length_singleton]
    omega
  · intro s screen hs
    rw [List.getElem?_append] at hs
    split_ifs at hs with hlt
    · exact h.cached s screen hs
    · obtain rfl := List.mem_singleton.mp (List.mem_of_getElem? hs)
      refine Or.inl ⟨rfl, ?_⟩
      rintro request ⟨hr, rfl, -⟩
      exact hlt (h.screen_lt request hr)

theorem NamesCached.appeared {w : World} (h : NamesCached w) {s : ℕ} {screen : Screen}
    (hs : w.screens[s]? = some screen) (userid : String) :
    NamesCached (w.appeared s screen userid) := by
  have hreq : (w.appeared s screen userid).nameRequests =
      w.nameRequests ++ [⟨s, userid, none, false⟩] := by
    unfold World.appeared
    cases screen.vc.community <;> rfl
  have hans : ∀ s' request, AnsweredFor (w.appeared s screen userid) s' request ↔
      AnsweredFor w s' request := by
    intro s' request
    simp only [AnsweredFor, hreq, List.mem_append, List.mem_singleton]
    constructor
    · rintro ⟨hr | rfl, hs', hh⟩
      · exact ⟨hr, hs', hh⟩
      · cases hh
    · rintro ⟨hr, hs', hh⟩
      exact ⟨Or.inl hr, hs', hh⟩
  constructor
  · intro request hr
    rw [appeared_screens]
    rw [hreq] at hr
    rcases List.mem_append.mp hr with hr | hr
    · exact h.screen_lt request hr
    · rw [List.mem_singleton.mp hr]
      exact (List.getElem?_eq_some_iff.mp hs).1
  · simp only [appeared_screens, hans]
    exact h.cached

theorem NamesCached.nameServed {w : World} (h : NamesCached w) {i : ℕ} {request : NameRequest}
    (hi : w.nameRequests[i]? = some request) (ho : request.answer = none)
    (answer : Option Snapshot) :
    NamesCached (w.setRequest i { request with answer := some answer }) := by
  have hmem : request ∈ w.nameRequests := List.mem_of_getElem? hi
  constructor
  · intro r hr
    rcases List.mem_or_eq_of_mem_set hr with hr | rfl
    · exact h.screen_lt r hr
    · exact h.screen_lt request hmem
  · intro s screen hs
    rcases h.cached s screen hs with ⟨hname, hnone⟩ | ⟨r, document, ⟨hr, hrs, hh⟩, hans, hname⟩
    · refine Or.inl ⟨hname, ?_⟩
      rintro r ⟨hr, hrs, hh⟩
      rcases List.mem_or_eq_of_mem_set hr with hr | rfl
      · exact hnone r ⟨hr, hrs, hh⟩
      · exact hnone request ⟨hmem, hrs, hh⟩
    · have hne : r ≠ request := by
        rintro rfl
        rw [ho] at hans
        cases hans
      exact Or.inr ⟨r, document, ⟨mem_set_of_ne hi hr hne, hrs, hh⟩, hans, hname⟩

theorem NamesCached.nameAnswered {w : World} (h : NamesCached w) {i : ℕ}
    {request : NameRequest} {document : Fields} {screen : Screen} {userName : String}
    (hi : w.nameRequests[i]? = some request) (ho : request.handled = false)
    (hans : request.answer = some (some (some document)))
    (hname : document.string "userName" = some userName)
    (hs : w.screens[request.screen]? = some screen) :
    NamesCached ((w.setScreen request.screen
      { screen with vc := { screen.vc with userName1 := userName } }).setRequest i
        { request with handled := true }) := by
  have hmem : request ∈ w.nameRequests := List.mem_of_getElem? hi
  constructor
  · intro r hr
    rw [setRequest_screens, setScreen_screens, List.length_set]
    rcases List.mem_or_eq_of_mem_set hr with hr | rfl
    · exact h.screen_lt r hr
    · exact h.screen_lt request hmem
  · intro s x hx
    rw [setRequest_screens, setScreen_screens] at hx
    by_cases hsr : request.screen = s
    · subst hsr
      rw [List.getElem?_set_self (List.getElem?_eq_some_iff.mp hs).1] at hx
      obtain rfl := Option.some.inj hx
      have hnew : { request with handled := true } ∈
          w.nameRequests.set i { request with handled := true } :=
        List.mem_set (List.getElem?_eq_some_iff.mp hi).1 _
      exact Or.inr ⟨_, document, ⟨hnew, rfl, rfl⟩, hans, hname⟩
    · rw [List.getElem?_set_ne hsr] at hx
      rcases h.cached s x hx with ⟨hx0, hnone⟩ | ⟨r, d, ⟨hr, hrs, hh⟩, hd, hdn⟩
      · refine Or.inl ⟨hx0, ?_⟩
        rintro r ⟨hr, hrs, hh⟩
        rcases List.mem_or_eq_of_mem_set hr with hr | rfl
        · exact hnone r ⟨hr, hrs, hh⟩
        · exact hsr hrs
      · have hne : r ≠ request := by
          rintro rfl
          rw [ho] at hh
          cases hh
        exact Or.inr ⟨r, d, ⟨mem_set_of_ne hi hr hne, hrs, hh⟩, hd, hdn⟩

theorem step_namesCached {w w' : World} {a : Act} (h : NamesCached w)
    (hstep : step w a = some w') : NamesCached w' := by
  cases step_effect hstep with
  | signedIn | usersWritten | sentNothing | sent | inserted => exact h.congr rfl rfl
  | opened client community => exact h.opened client community
  | appeared hs _ => exact h.appeared hs _
  | popped hs => exact h.congr rfl (map_set_eq hs rfl)
  | edited _ hs => exact h.congr rfl (map_set_eq hs rfl)
  | accepted _ hs => exact h.congr rfl (map_set_eq hs rfl)
  | rejected _ hs => exact h.congr rfl (map_set_eq hs rfl)
  | delivered _ hs => exact h.congr rfl (map_set_eq hs (by simp))
  | nameServed _ _ hi ho => exact h.nameServed hi ho _
  | nameAnswered hi ho hserved hs hvc =>
    obtain ⟨user, huser, rfl⟩ := ChatScreentVC.userNameAnswer_eq_ok.mp hvc
    obtain ⟨document, userName, rfl, hname, rfl⟩ := decodeUser_eq_ok.mp huser
    exact h.nameAnswered hi ho hserved hname hs

/-- An answer is new only when Firestore has just given it; the document in it is then a version
of the server, when the client has no write of its own under way. -/
theorem step_answers {w w' : World} {a : Act} (h : step w a = some w') (hc : NameKnown w a)
    {r : NameRequest} {document : Fields} (hr : r ∈ w'.nameRequests)
    (hans : r.answer = some (some (some document))) :
    (∃ r₀ ∈ w.nameRequests, r₀.userid = r.userid ∧ r₀.answer = r.answer) ∨
      w.users r.userid = some document ∨ document ∈ w.versions r.userid := by
  cases step_effect h with
  | signedIn | usersWritten | opened | popped | edited | sentNothing | sent | inserted | accepted
  | rejected | delivered => exact Or.inl ⟨r, hr, rfl, rfl⟩
  | @appeared s screen userid =>
    have hreq : (w.appeared s screen userid).nameRequests =
        w.nameRequests ++ [⟨s, userid, none, false⟩] := by
      unfold World.appeared
      cases screen.vc.community <;> rfl
    rw [hreq] at hr
    rcases List.mem_append.mp hr with hr | hr
    · exact Or.inl ⟨r, hr, rfl, rfl⟩
    · rw [List.mem_singleton.mp hr] at hans
      cases hans
  | @nameServed i request own source hi _ =>
    rcases List.mem_or_eq_of_mem_set hr with hr | rfl
    · exact Or.inl ⟨r, hr, rfl, rfl⟩
    · obtain rfl := hc.settled i own source rfl
      exact Or.inr (of_answerFrom (by simp) (by simp) (fun _ hd => Or.inl hd)
        (fun _ hd => Or.inr hd) (Option.some.inj hans))
  | @nameAnswered i request _ _ _ hi =>
    rcases List.mem_or_eq_of_mem_set hr with hr | rfl
    · exact Or.inl ⟨r, hr, rfl, rfl⟩
    · exact Or.inl ⟨request, List.mem_of_getElem? hi, rfl, rfl⟩

/-- A step adds no version but the document that is stored after it. -/
theorem step_versions {w w' : World} {a : Act} (h : step w a = some w') {uid : String}
    {document : Fields} (hd : document ∈ w'.versions uid) :
    document ∈ w.versions uid ∨ w'.users uid = some document := by
  cases step_effect h with
  | usersWritten uid' stored =>
    by_cases hu : uid = uid'
    · subst hu
      simpa [World.writeUser, eq_comm] using hd
    · exact Or.inl (by simpa [World.writeUser, hu] using hd)
  | @appeared s screen userid =>
    refine Or.inl ?_
    unfold World.appeared at hd
    cases hset : screen.vc.community <;> simpa [hset, World.setFeed] using hd
  | _ => exact Or.inl hd

variable {currentUser : ℕ → Option String} {users : String → Option Fields}
  {as : List Act} {w : World}

theorem run_namesCached (h : Run step (initial currentUser users) as w) : NamesCached w :=
  h.invariant ⟨by simp [initial], by simp [initial]⟩ step_namesCached

theorem version_was_stored (h : Run step (initial currentUser users) as w) {uid : String}
    {document : Fields} (hd : document ∈ w.versions uid) :
    Once step (initial currentUser users) as fun w => w.users uid = some document := by
  induction h with
  | nil => exact Once.now Run.nil (Option.mem_toList.mp hd)
  | @snoc as w a w' prior next ih =>
    rcases step_versions next hd with hold | hnow
    · exact (ih hold).append [a]
    · exact Once.now (prior.snoc next) hnow

/-- Every document in an answer was stored under the requested uid earlier on the run. -/
theorem answer_was_stored (h : Run step (initial currentUser users) as w)
    (hc : Along step (initial currentUser users) NameKnown as) {r : NameRequest}
    {document : Fields} (hr : r ∈ w.nameRequests)
    (hans : r.answer = some (some (some document))) :
    Once step (initial currentUser users) as fun w => w.users r.userid = some document := by
  induction h generalizing r with
  | nil => simp [initial] at hr
  | @snoc as w a w' prior next ih =>
    rcases step_answers next (hc.last prior) hr hans with ⟨r₀, hr₀, huid, heq⟩ | hnow | hversion
    · exact huid ▸ (ih hc.prior hr₀ (heq.trans hans)).append [a]
    · exact (Once.now prior hnow).append [a]
    · exact (version_was_stored prior hversion).append [a]

/-- In a state with an answer handled, the cached name was stored for the account asked. -/
theorem cached_name_was_stored (h : Run step (initial currentUser users) as w)
    (hc : Along step (initial currentUser users) NameKnown as) {s : ℕ} {screen : Screen}
    {userid : String} (hs : w.screens[s]? = some screen)
    (hsome : ∃ request, AnsweredFor w s request)
    (hall : ∀ request, AnsweredFor w s request → request.userid = userid) :
    Once step (initial currentUser users) as fun w =>
      storedName w userid = some screen.vc.userName1 := by
  rcases (run_namesCached h).cached s screen hs with ⟨-, hnone⟩ | ⟨r, document, hr, hans, hname⟩
  · obtain ⟨request, hreq⟩ := hsome
    exact absurd hreq (hnone request)
  · refine (answer_was_stored h hc hr.1 hans).mono fun w₁ hw₁ => ?_
    rw [hall r hr] at hw₁
    simp [storedName, Snapshot.string, hw₁, hname]

/-- An attributed message of a user whose stored name was never empty has a name. -/
theorem Attributed.name_ne {w₀ : World} {as : List Act} {key name userid text : String}
    (h : Attributed w₀ as key (.dict (dataArray name userid text)))
    (hne : ¬ Once step w₀ as fun w => storedName w userid = some "") : name ≠ "" := by
  obtain ⟨s, name', userid', text', pre, post, rfl, heq, hheld⟩ := h
  obtain ⟨rfl, rfl, -⟩ := dataArray_inj.mp (Value.dict.inj heq)
  rintro rfl
  exact hne (hheld.append _)

/-- When every tap on send comes after the answer to the name request, and names are loaded with no
write of the client under way, every message that the app stores carries a name that its sender
had stored by then; in particular it does not carry the placeholder of a sender whose stored name
was never empty. -/
theorem messages_attributed (h : Run step (initial currentUser users) as w)
    (hc : Along step (initial currentUser users) NameKnown as) (c k : String) (v : Value)
    (hv : (k, v) ∈ (w.messages c).known) (hforeign : Act.foreignChild c k v ∉ as) :
    Attributed (initial currentUser users) as k v ∧
      ∀ name userid text, v = .dict (dataArray name userid text) →
        (¬ Once step (initial currentUser users) as fun w => storedName w userid = some "") →
          name ≠ "" := by
  have hatt : Attributed (initial currentUser users) as k v := by
    obtain ⟨s, pre, post, w₁, rfl, hpre, screen, userid, community, hs, -, -, hu, rfl⟩ :=
      (child_origin h c k v (Or.inl hv)).resolve_left hforeign
    have hknown := (hc pre _ post w₁ rfl hpre).answered s k rfl screen userid hs hu
    exact ⟨s, screen.vc.userName1, userid, screen.vc.messageTextField, pre, post, rfl, rfl,
      cached_name_was_stored hpre hc.prior hs hknown.1 hknown.2⟩
  refine ⟨hatt, ?_⟩
  rintro name userid text rfl hne
  exact hatt.name_ne hne

/-- The document that sign-up stored for the one user of the runs below. -/
def namedDocument : Fields :=
  [("userName", .string "nick"), ("email", .string "n@x.org"), ("userID", .string "u")]

def namedWorld : World := initial (fun _ => some "u") fun _ => some namedDocument

/-- The chat is opened, the user is renamed on another client, and the name request is answered
from the cache, with the name before that. -/
def answeredVisit : List Act :=
  [.didSelectItemAt 0 ⟨"Swift", "c"⟩, .viewDidAppear 0,
    .usersWritten "u" (some (namedDocument.merge [("userName", .string "renamed")])),
    .nameServed 0 [] (.cache 0), .nameAnswered 0, .edit 0 "hi"]

theorem answeredVisit_attributed : ∃ w, Run step namedWorld
    (answeredVisit ++ [.sendMessageAction 0 "k"]) w ∧
      Attributed namedWorld (answeredVisit ++ [.sendMessageAction 0 "k"]) "k"
        (.dict (dataArray "nick" "u" "hi")) := by
  have hknown : (exec step namedWorld (answeredVisit ++ [.sendMessageAction 0 "k"])).map
      (fun w => (w.messages "c").known) =
        some [("k", .dict (dataArray "nick" "u" "hi"))] := rfl
  have hasked : (exec step namedWorld answeredVisit).map
      (fun w => (w.nameRequests, w.currentUser, w.screens.map Screen.client)) =
        some ([⟨0, "u", some (some (some namedDocument)), true⟩], fun _ => some "u", [0]) := rfl
  obtain ⟨w, hw, hk⟩ := run_of_exec_map hknown
  refine ⟨w, hw, (messages_attributed hw ?_ "c" "k" _
    (by rw [hk]; simp) (by simp [answeredVisit])).1⟩
  refine Along.snoc (Along.of_forall fun a ha w₁ => ?_) fun w₁ hw₁ => ?_
  · constructor
    · rintro s key rfl
      simp [answeredVisit] at ha
    · rintro i own source rfl
      obtain ⟨-, rfl, -⟩ : i = 0 ∧ own = [] ∧ source = .cache 0 := by simpa [answeredVisit] using ha
      rfl
  obtain ⟨w₂, hw₂, heq⟩ := run_of_exec_map hasked
  obtain rfl : w₂ = w₁ := hw₂.deterministic hw₁
  obtain ⟨hreq, huser, -⟩ := by simpa only [Prod.mk.injEq] using heq
  refine ⟨?_, by simp⟩
  rintro s key hsend screen userid hs hu
  obtain ⟨rfl, rfl⟩ : 0 = s ∧ "k" = key := by simpa using hsend
  obtain rfl : "u" = userid := by simpa [huser] using hu
  simp [AnsweredFor, hreq]

/-- The tap on send comes before the answer to the name request. -/
def eagerSend : List Act :=
  [.didSelectItemAt 0 ⟨"Swift", "c"⟩, .viewDidAppear 0, .edit 0 "hi", .sendMessageAction 0 "k"]

theorem step_users {w w' : World} {a : Act} (h : step w a = some w')
    (ha : ∀ uid document, a ≠ .usersWritten uid document) : w'.users = w.users := by
  cases step_effect h with
  | @usersWritten uid document => exact absurd rfl (ha uid document)
  | @appeared s screen userid =>
    unfold World.appeared
    cases screen.vc.community <;> rfl
  | _ => rfl

/-- The eager message carries the placeholder, which `Users/u` never held. -/
theorem eager_send_not_attributed : ¬ ∀ currentUser users as w c k v,
    Run step (initial currentUser users) as w → (k, v) ∈ (w.messages c).known →
      Act.foreignChild c k v ∉ as → Attributed (initial currentUser users) as k v := by
  intro hall
  have hknown : (exec step namedWorld eagerSend).map (fun w => (w.messages "c").known) =
      some [("k", .dict (dataArray "" "u" "hi"))] := rfl
  obtain ⟨w, hw, hk⟩ := run_of_exec_map hknown
  have hatt := hall _ _ eagerSend w "c" "k" (.dict (dataArray "" "u" "hi"))
    hw (by rw [hk]; simp) (by simp [eagerSend])
  refine hatt.name_ne ?_ rfl
  rintro ⟨pre, w₁, hpre, hrun, hname⟩
  have husers : w₁.users = namedWorld.users := by
    refine hrun.invariant_along (I := fun w => w.users = namedWorld.users)
      (C := fun _ a => ∀ uid document, a ≠ .usersWritten uid document)
      (Along.of_forall fun a ha _ => ?_) rfl fun hi hc hstep => (step_users hstep hc).trans hi
    have hmem := hpre.subset ha
    rintro uid document rfl
    simp [eagerSend] at hmem
  rw [storedName, husers] at hname
  exact absurd hname (by decide)

end LoopChat.ChatSystem
