import LoopChat.ListAgreement
import LoopChat.CommunityListSystem

/-!
# Each list over the shared tree is the list of one client

For one client the others are outside: their creations arrive when they are accepted, and what
is below a key does not matter to the list. So whatever the list and the creation forms of a
client do over the shared tree, the system of one list does as well.
-/
namespace LoopChat.SharedDatabase
open FirebaseValues PathStores TransitionRuns ChildFeed
open CommunityListSystem (Owner)

variable {w w' : World} {c c' : ℕ} {b : Write} {k key : String} {v : Value} {ok : Bool}
  {answered : List (ℕ × Write × Bool)} {client client' : Client}

/-- An unanswered creation, as it stands in the feed of one list. -/
def Write.pending : Write → Option (Callback Unit Owner × String × Value)
  | .community key fields form => some (⟨(), .form form⟩, key, .dict fields)
  | .message .. => none

/-- The feed holds the accepted creations and those of the client, and under each of them the
same observers were raised their events. -/
structure FeedOf (answered : List (ℕ × Write × Bool)) (client : Client)
    (feed : Feed String Value Unit Owner) : Prop where
  observers : feed.observers = List.replicate client.observers ⟨(), .root⟩
  children : ∀ k v, (k, v) ∈ feed.children ↔
    ∃ fields form c, v = .dict fields ∧ (c, .community k fields form, true) ∈ answered
  outstanding : feed.outstanding = client.unanswered.filterMap Write.pending
  raised : ∀ o k v, (k, v) ∈ feed.known →
    ((o, k) ∈ feed.raised.map (fun e => (e.observer, e.key)) ↔ (o, k) ∈ client.raised)
  issued : ∀ k ∈ feed.issued, ∃ fields form,
    .community k fields form ∈ answered.map (fun entry => entry.2.1) ++ client.unanswered

structure Refined (answered : List (ℕ × Write × Bool)) (client : Client)
    (t : CommunityListSystem.World) : Prop where
  currentUser : t.currentUser = client.currentUser
  root : t.root = client.list
  forms : t.forms = client.forms
  feed : FeedOf answered client t.communities

namespace FeedOf

variable {feed : Feed String Value Unit Owner}

theorem known_iff (h : FeedOf w.answered (w.clients c) feed) : (k, v) ∈ feed.known ↔
    ∃ fields form, v = .dict fields ∧ Effective w c (.community k fields form) := by
  simp only [Feed.known, List.mem_append, h.children, h.outstanding, List.mem_map,
    List.mem_filterMap]
  constructor
  · rintro (⟨fields, form, c', rfl, hdone⟩ | ⟨⟨cb, p⟩, ⟨a, ha, hpending⟩, hp⟩)
    · exact ⟨fields, form, rfl, Or.inl ⟨c', hdone⟩⟩
    · cases a with
      | community key fields form =>
        obtain rfl : p = (k, v) := hp
        obtain ⟨-, rfl, rfl⟩ : ⟨(), .form form⟩ = cb ∧ key = k ∧ Value.dict fields = v := by
          simpa [Write.pending] using hpending
        exact ⟨fields, form, rfl, Or.inr ha⟩
      | message => cases hpending
  · rintro ⟨fields, form, rfl, ⟨c', hdone⟩ | hopen⟩
    · exact Or.inl ⟨fields, form, c', rfl, hdone⟩
    · exact Or.inr ⟨_, ⟨_, hopen, rfl⟩, rfl⟩

/-- What leaves the creations, the observers and the events alone. -/
theorem frame (h : FeedOf answered client feed) (hobs : client'.observers = client.observers)
    (hraised : client'.raised = client.raised)
    (hpending : client'.unanswered.filterMap Write.pending =
      client.unanswered.filterMap Write.pending)
    (hsub : client.unanswered ⊆ client'.unanswered) : FeedOf answered client' feed where
  observers := hobs ▸ h.observers
  children := h.children
  outstanding := hpending ▸ h.outstanding
  raised o k v hk := hraised ▸ h.raised o k v hk
  issued k hk := by
    obtain ⟨fields, form, hmem⟩ := h.issued k hk
    exact ⟨fields, form, (List.mem_append.mp hmem).elim (List.mem_append_left _)
      fun hopen => List.mem_append_right _ (hsub hopen)⟩

/-- A new child was raised to no observer on either side. -/
theorem raised_new (h : FeedOf answered client feed) {g : Feed String Value Unit Owner}
    (hissued : key ∉ feed.issued) (hdue : ∀ o, (o, key) ∉ client.raised)
    (hraised : g.raised = feed.raised)
    (hknown : ∀ p, p ∈ g.known ↔ p ∈ feed.known ∨ p = (key, v)) (o : ℕ) (k : String)
    (v' : Value) (hk : (k, v') ∈ g.known) :
    (o, k) ∈ g.raised.map (fun e => (e.observer, e.key)) ↔ (o, k) ∈ client.raised := by
  rw [hraised]
  rcases (hknown _).mp hk with hold | hnew
  · exact h.raised o k v' hold
  · obtain ⟨rfl, -⟩ := Prod.mk.inj hnew
    refine iff_of_false (fun hmem => ?_) (hdue o)
    obtain ⟨e, he, heq⟩ := List.mem_map.mp hmem
    obtain ⟨-, rfl⟩ := Prod.mk.inj heq
    exact hissued (feed.raised_issued e he)

end FeedOf

theorem one {t t' : CommunityListSystem.World} {act : CommunityListSystem.Act}
    (h : CommunityListSystem.step t act = some t') : Run CommunityListSystem.step t [act] t' :=
  Run.nil.snoc h

/-- The feed after the answer to its oldest write. -/
structure FeedAnswered (feed : Feed String Value Unit Owner) (child : String × Value) (ok : Bool)
    (g : Feed String Value Unit Owner) : Prop where
  children : g.children = feed.children ++ if ok then [child] else []
  outstanding : g.outstanding = feed.outstanding.eraseIdx 0
  observers : g.observers = feed.observers
  raised : g.raised = feed.raised
  issued : g.issued = feed.issued
  known : g.known ⊆ feed.known

theorem step_answer {t : CommunityListSystem.World} {form : ℕ} {vc : CreateCommunityVC}
    {child : String × Value} (ok : Bool)
    (hhead : t.communities.outstanding[0]? = some (⟨(), .form form⟩, child))
    (hvc : t.forms[form]? = some vc) :
    ∃ act g, CommunityListSystem.step t act =
      some { t.setForm form (vc.createCommunityDone (!ok)) with communities := g } ∧
        FeedAnswered t.communities child ok g := by
  cases ok with
  | true =>
    obtain ⟨g, hg⟩ := Feed.accept_isSome hhead
    obtain ⟨p, hp, hchildren, hout, hobs, hraised, hissued⟩ := Feed.accept_eq_some hg
    obtain rfl : child = p := by simpa [hhead] using hp
    refine ⟨.accepted 0, g, ?_, by simpa using hchildren, hout, hobs, hraised, hissued,
      Feed.accept_known hg⟩
    simp [CommunityListSystem.step, hg, CommunityListSystem.answered, hvc]
  | false =>
    obtain ⟨g, hg⟩ := Feed.reject_isSome hhead
    obtain ⟨-, -, hchildren, hout, hobs, hraised, hissued⟩ := Feed.reject_eq_some hg
    refine ⟨.rejected 0, g, ?_, by simpa using hchildren, hout, hobs, hraised, hissued,
      Feed.reject_known hg⟩
    simp [CommunityListSystem.step, hg, CommunityListSystem.answered, hvc]

/-- What the system of one list does, in some steps or none, to be at `client` again. -/
def Follows (t : CommunityListSystem.World) (answered : List (ℕ × Write × Bool))
    (client : Client) : Prop :=
  ∃ bs t', Run CommunityListSystem.step t bs t' ∧ Refined answered client t'

variable {t : CommunityListSystem.World}

namespace Refined

theorem follow_appeared (h : Refined answered client t) : Follows t answered { client with
    list := { arrayOfCommunities := [] }, observers := client.observers + 1 } := by
  refine ⟨_, _, one (CommunityListSystem.step_viewDidAppear t), h.currentUser, rfl, h.forms, ?_⟩
  constructor
  case observers =>
    change t.communities.observers ++ [_] = _
    rw [h.feed.observers]
    exact (List.replicate_succ').symm
  case children => exact h.feed.children
  case outstanding => exact h.feed.outstanding
  case raised => exact h.feed.raised
  case issued => exact h.feed.issued

/-- An event for a community that is not listed has no match, and needs none. -/
theorem follow_added (hr : Refined w.answered (w.clients c) t) (hv : Valid w) {o : ℕ}
    {value : Value} (seen : get ["communities", key] (w.view c) = some value)
    (registered : o < (w.clients c).observers) (due : (o, key) ∉ (w.clients c).raised) :
    Follows t w.answered { w.clients c with
      list := ((w.clients c).list.childAdded key value).1
      raised := (w.clients c).raised ++ [(o, key)] } := by
  cases hdecode : decodeCommunity key value with
  | none =>
    have hlist : ((w.clients c).list.childAdded key value).1 = (w.clients c).list := by
      simp [CommunityVC.childAdded, hdecode]
    refine ⟨[], t, .nil, hr.currentUser, hr.root.trans hlist.symm, hr.forms, ?_⟩
    constructor
    case raised =>
      intro o' k v hk
      have hne : k ≠ key := by
        rintro rfl
        obtain ⟨fields, form, -, heff⟩ := hr.feed.known_iff.mp hk
        obtain ⟨name, -, rfl⟩ := hv.formed c _ heff.mem_writes
        rw [(decode_iff seen).mpr (hv.named_iff.mpr ⟨form, heff⟩)] at hdecode
        cases hdecode
      simpa [hne] using hr.feed.raised o' k v hk
    case observers => exact hr.feed.observers
    case children => exact hr.feed.children
    case outstanding => exact hr.feed.outstanding
    case issued => exact hr.feed.issued
  | some community =>
    obtain ⟨name, id⟩ := community
    obtain ⟨-, -, -, hid⟩ := decodeCommunity_eq_some.mp hdecode
    obtain rfl : key = id := hid.symm
    obtain ⟨form, heff⟩ := hv.named_iff.mp ((decode_iff seen).mp hdecode)
    have hknown : (key, Value.dict [("CommunityName", .string name)]) ∈ t.communities.known :=
      hr.feed.known_iff.mpr ⟨_, form, rfl, heff⟩
    have hcb : t.communities.observers[o]? = some ⟨(), .root⟩ := by
      rw [hr.feed.observers, List.getElem?_replicate, if_pos registered]
    obtain ⟨g, hg⟩ := Feed.deliver_isSome hcb (by simpa [Feed.visible, Feed.known] using hknown)
      (fun hmem => due ((hr.feed.raised o key _ hknown).mp hmem))
    have hstep : CommunityListSystem.step t (.childAdded o key) = some { t with
        root := (t.root.childAdded key (.dict [("CommunityName", .string name)])).1
        communities := g } := by
      simp [CommunityListSystem.step, hg]
    have hlist : (t.root.childAdded key (.dict [("CommunityName", .string name)])).1 =
        ((w.clients c).list.childAdded key value).1 := by
      simp [CommunityVC.childAdded, hdecode, decodeCommunity_created, hr.root]
    obtain ⟨-, -, -, hraised, hchildren, hout, hobs, hissued⟩ := Feed.deliver_eq_some hg
    refine ⟨_, _, one hstep, hr.currentUser, hlist, hr.forms, ?_⟩
    constructor
    case observers => exact hobs.trans hr.feed.observers
    case children => exact fun k v => hchildren ▸ hr.feed.children k v
    case outstanding => exact hout.trans hr.feed.outstanding
    case raised =>
      intro o' k v hk
      have hold := hr.feed.raised o' k v (Feed.deliver_known hg ▸ hk)
      simp only [hraised, List.map_append, List.mem_append, hold]
      simp
    case issued => exact fun k hk => hr.feed.issued k (hissued ▸ hk)

theorem follow_pushed (h : Refined answered client t) :
    Follows t answered { client with forms := client.forms ++ [{}] } := by
  refine ⟨[.pushCreateCommunity], _, one rfl, h.currentUser, h.root, ?_,
    h.feed.frame rfl rfl rfl (List.Subset.refl _)⟩
  exact congrArg (· ++ [{}]) h.forms

theorem follow_edited (h : Refined answered client t) {i : ℕ} {form : CreateCommunityVC}
    (text : String) (at_i : client.forms[i]? = some form) :
    Follows t answered (client.setForm i { form with addNewName := text }) := by
  have hstep : CommunityListSystem.step t (.edit i text) =
      some (t.setForm i { form with addNewName := text }) := by
    simp [CommunityListSystem.step, h.forms, at_i]
  refine ⟨_, _, one hstep, h.currentUser, h.root, ?_,
    h.feed.frame rfl rfl rfl (List.Subset.refl _)⟩
  exact congrArg (·.set i { form with addNewName := text }) h.forms

theorem follow_created (hr : Refined w.answered (w.clients c) t) (hv : Valid w) (ht : Tracked w)
    {i : ℕ} {form : CreateCommunityVC} (hfresh : key ∉ w.issued)
    (at_i : (w.clients c).forms[i]? = some form) (named : form.addNewName ≠ "") :
    Follows t w.answered { w.clients c with
      unanswered := (w.clients c).unanswered ++
        [.community key [("CommunityName", .string form.addNewName)] i] } := by
  have hnew : ∀ fields form', .community key fields form' ∉ w.writes c :=
    fun fields form' hmem => hfresh (hv.issued c _ hmem).1
  have hissued : key ∉ t.communities.issued := by
    intro hmem
    obtain ⟨fields, form', hcreated⟩ := hr.feed.issued key hmem
    exact hnew fields form' hcreated
  obtain ⟨g, hg⟩ : ∃ g, t.communities.write ⟨(), .form i⟩ key
      (.dict [("CommunityName", .string form.addNewName)]) = some g := Feed.write_isSome hissued
  have hstep : CommunityListSystem.step t (.createCommunityButton i key) =
      some { t with communities := g } := by
    simp [CommunityListSystem.step, hr.forms, at_i, CreateCommunityVC.createCommunityButton,
      named, CommunityListSystem.perform, hg]
  obtain ⟨-, hchildren, hout, hobs, hraised, hkeys⟩ := Feed.write_eq_some hg
  refine ⟨_, _, one hstep, hr.currentUser, hr.root, hr.forms, ?_⟩
  constructor
  case observers => exact hobs.trans hr.feed.observers
  case children => exact fun k v => hchildren ▸ hr.feed.children k v
  case outstanding =>
    rw [hout, hr.feed.outstanding, List.filterMap_append]
    rfl
  case raised =>
    refine hr.feed.raised_new hissued ?_ hraised fun p => Feed.mem_known_write hg
    intro o hmem
    obtain ⟨fields, form', hcreated⟩ := ht.created c o key hmem
    exact hnew fields form' hcreated
  case issued =>
    intro k hk
    rw [hkeys] at hk
    rcases List.mem_cons.mp hk with rfl | hold
    · exact ⟨[("CommunityName", .string form.addNewName)], i, by simp⟩
    · obtain ⟨fields, form', hcreated⟩ := hr.feed.issued k hold
      exact ⟨fields, form', by rw [← List.append_assoc]; exact List.mem_append_left _ hcreated⟩

/-- The system of one list follows whatever its client does. -/
theorem follow_on (hr : Refined w.answered (w.clients c) t) (hv : Valid w) (ht : Tracked w)
    {act : LocalAct} (hs : step w (.on c act) = some w') :
    Follows t w'.answered (w'.clients c) := by
  obtain ⟨hfresh, client, hclient, rfl⟩ := step_on hs
  rw [setClient_clients, if_pos rfl]
  change Follows t w.answered client
  cases Client.step_list hclient with
  | signedIn user =>
    exact ⟨[.signedIn user], _, one rfl, rfl, hr.root, hr.forms,
      hr.feed.frame rfl rfl rfl (List.Subset.refl _)⟩
  | appeared => exact hr.follow_appeared
  | added seen registered due => exact hr.follow_added hv seen registered due
  | pushed => exact hr.follow_pushed
  | edited text at_i => exact hr.follow_edited text at_i
  | createdNothing key at_i unnamed => exact ⟨[], t, .nil, hr⟩
  | created key at_i named => exact hr.follow_created hv ht (hfresh key rfl) at_i named
  | chat same posts =>
    refine ⟨[], t, .nil, hr.currentUser.trans same.currentUser.symm, hr.root.trans same.list.symm,
      hr.forms.trans same.forms.symm, ?_⟩
    rcases posts with hu | ⟨communityid, key, fields, i, -, hu⟩
    · exact hr.feed.frame same.observers same.raised (by rw [hu]) (by rw [hu]; exact fun _ h => h)
    · refine hr.feed.frame same.observers same.raised ?_ (hu ▸ List.subset_append_left _ _)
      rw [hu, List.filterMap_append]
      exact List.append_nil _

/-! ### Answers -/

/-- The answer to a message, or a refusal to another client, brings no creation. -/
theorem follow_quiet (h : Refined answered client t) (hb : ok = true → b.pending = none)
    (same : SameList client' client)
    (hpending : client'.unanswered.filterMap Write.pending =
      client.unanswered.filterMap Write.pending)
    (hsub : client.unanswered ⊆ b :: client'.unanswered) :
    Follows t (answered ++ [(c, b, ok)]) client' := by
  refine ⟨[], t, .nil, h.currentUser.trans same.currentUser.symm, h.root.trans same.list.symm,
    h.forms.trans same.forms.symm, ?_⟩
  constructor
  case observers => exact same.observers ▸ h.feed.observers
  case children =>
    intro k v
    rw [h.feed.children]
    refine exists_congr fun fields => exists_congr fun form => exists_congr fun c' =>
      and_congr_right fun _ => ?_
    rw [List.mem_append, List.mem_singleton]
    refine (or_iff_left ?_).symm
    intro heq
    obtain ⟨-, rfl, rfl⟩ : c' = c ∧ .community k fields form = b ∧ true = ok := by
      simpa using heq
    cases hb rfl
  case outstanding => exact h.feed.outstanding.trans hpending.symm
  case raised => exact fun o k v hk => same.raised ▸ h.feed.raised o k v hk
  case issued =>
    intro k hk
    obtain ⟨fields, form, hmem⟩ := h.feed.issued k hk
    refine ⟨fields, form, ?_⟩
    rw [List.map_append, List.append_assoc]
    exact (List.mem_append.mp hmem).elim (List.mem_append_left _)
      fun hopen => List.mem_append_right _ (hsub hopen)

/-- The accepted creation of another client. -/
theorem follow_other (hr : Refined w.answered (w.clients c) t) (hv : Valid w) (ht : Tracked w)
    {fields : Fields} {form : ℕ} (hne : c ≠ c')
    (hb : .community key fields form ∈ (w.clients c').unanswered) :
    Follows t (w.answered ++ [(c', .community key fields form, true)]) (w.clients c) := by
  have hnew : ∀ fields' form', .community key fields' form' ∉ w.writes c :=
    fun fields' form' hmem => hv.path_ne hne hmem hb rfl
  have hissued : key ∉ t.communities.issued := by
    intro hmem
    obtain ⟨fields', form', hcreated⟩ := hr.feed.issued key hmem
    exact hnew fields' form' hcreated
  obtain ⟨g, hg⟩ := Feed.insert_isSome (v := .dict fields) hissued
  have hstep : CommunityListSystem.step t (.otherClient key (.dict fields)) =
      some { t with communities := g } := by
    simp [CommunityListSystem.step, hg]
  obtain ⟨-, hchildren, hout, hobs, hraised, hkeys⟩ := Feed.insert_eq_some hg
  refine ⟨_, _, one hstep, hr.currentUser, hr.root, hr.forms, ?_⟩
  constructor
  case observers => exact hobs.trans hr.feed.observers
  case children =>
    intro k v
    simp only [hchildren, List.mem_append, hr.feed.children, List.mem_singleton, Prod.mk.injEq,
      Write.community.injEq, and_true]
    constructor
    · rintro (⟨fields', form', c₀, rfl, hdone⟩ | ⟨rfl, rfl⟩)
      · exact ⟨fields', form', c₀, rfl, Or.inl hdone⟩
      · exact ⟨fields, form, c', rfl, Or.inr ⟨rfl, rfl, rfl, rfl⟩⟩
    · rintro ⟨fields', form', c₀, rfl, hdone | ⟨-, rfl, rfl, -⟩⟩
      · exact Or.inl ⟨fields', form', c₀, rfl, hdone⟩
      · exact Or.inr ⟨rfl, rfl⟩
  case outstanding => exact hout.trans hr.feed.outstanding
  case raised =>
    refine hr.feed.raised_new hissued ?_ hraised fun p => Feed.mem_known_insert hg
    intro o hmem
    obtain ⟨fields', form', hcreated⟩ := ht.created c o key hmem
    exact hnew fields' form' hcreated
  case issued =>
    intro k hk
    rw [hkeys] at hk
    rcases List.mem_cons.mp hk with rfl | hold
    · exact ⟨fields, form, by simp⟩
    · obtain ⟨fields', form', hcreated⟩ := hr.feed.issued k hold
      refine ⟨fields', form', ?_⟩
      rw [List.map_append]
      simp only [List.mem_append] at hcreated ⊢
      exact hcreated.imp_left Or.inl

/-- The answer to the client's own creation. -/
theorem follow_own (hr : Refined w.answered (w.clients c) t) (ht : Tracked w)
    {fields : Fields} {form : ℕ} {rest : List Write} (ok : Bool)
    (hun : (w.clients c).unanswered = .community key fields form :: rest) :
    Follows t (w.answered ++ [(c, .community key fields form, ok)])
      (({ w.clients c with unanswered := rest } : Client).completed (!ok)
        (.community key fields form)) := by
  have hlt : form < (w.clients c).forms.length := ht.forms c key fields form (by simp [hun])
  obtain ⟨vc, hvc⟩ : ∃ vc, (w.clients c).forms[form]? = some vc :=
    ⟨_, List.getElem?_eq_getElem hlt⟩
  have hout : t.communities.outstanding =
      (⟨(), .form form⟩, key, .dict fields) :: rest.filterMap Write.pending := by
    rw [hr.feed.outstanding, hun]
    rfl
  have hforms : (t.setForm form (vc.createCommunityDone (!ok))).forms =
      (w.clients c).forms.modify form fun vc => vc.createCommunityDone (!ok) := by
    have : Inhabited CreateCommunityVC := ⟨{}⟩
    rw [List.modify_eq_set, hvc, CommunityListSystem.World.setForm, hr.forms]
    rfl
  have hhead : t.communities.outstanding[0]? = some (⟨(), .form form⟩, key, .dict fields) := by
    rw [hout]
    rfl
  obtain ⟨act, g, hstep, hanswered⟩ := step_answer ok hhead (hr.forms ▸ hvc)
  refine ⟨[act], _, one hstep, hr.currentUser, hr.root, hforms, ?_⟩
  constructor
  case observers => exact hanswered.observers.trans hr.feed.observers
  case children =>
    intro k v
    simp only [hanswered.children, List.mem_append, hr.feed.children, List.mem_singleton,
      Prod.mk.injEq]
    cases ok with
    | true =>
      constructor
      · rintro (⟨fields', form', c₀, rfl, hdone⟩ | hnew)
        · exact ⟨fields', form', c₀, rfl, Or.inl hdone⟩
        · obtain ⟨rfl, rfl⟩ := Prod.mk.inj (List.mem_singleton.mp hnew)
          exact ⟨fields, form, c, rfl, Or.inr ⟨rfl, rfl, rfl⟩⟩
      · rintro ⟨fields', form', c₀, rfl, hdone | ⟨-, heq, -⟩⟩
        · exact Or.inl ⟨fields', form', c₀, rfl, hdone⟩
        · obtain ⟨rfl, rfl, rfl⟩ := Write.community.inj heq
          exact Or.inr (List.mem_singleton.mpr rfl)
    | false => simp
  case outstanding =>
    rw [hanswered.outstanding, hout]
    rfl
  case raised =>
    intro o k v hk
    rw [hanswered.raised]
    exact hr.feed.raised o k v (hanswered.known hk)
  case issued =>
    intro k hk
    obtain ⟨fields', form', hmem⟩ := hr.feed.issued k (hanswered.issued ▸ hk)
    exact ⟨fields', form', by simpa [hun, Client.completed] using hmem⟩

theorem follow_answer (hr : Refined w.answered (w.clients c) t) (hv : Valid w) (ht : Tracked w)
    (hs : w.answer c' ok = some w') : Follows t w'.answered (w'.clients c) := by
  obtain ⟨b, rest, hans⟩ := answer_eq_some hs
  rw [hans.answered]
  by_cases hc : c = c'
  · subst hc
    rw [answer_client hs hans.unanswered]
    cases b with
    | community key fields form => exact hr.follow_own ht ok hans.unanswered
    | message communityid key fields chat =>
      refine hr.follow_quiet (fun _ => rfl) ⟨rfl, rfl, rfl, rfl, rfl⟩ ?_ ?_
      · rw [hans.unanswered]
        rfl
      · rw [hans.unanswered]
        exact List.Subset.refl _
  · rw [hans.others c hc]
    cases b with
    | community key fields form =>
      cases ok with
      | true => exact hr.follow_other hv ht hc (by simp [hans.unanswered])
      | false =>
        exact hr.follow_quiet (by simp) (.refl _) rfl (List.subset_cons_self _ _)
    | message communityid key fields chat =>
      exact hr.follow_quiet (fun _ => rfl) (.refl _) rfl (List.subset_cons_self _ _)

end Refined

/-! ### Runs -/

variable {currentUser : ℕ → Option String} {as : List Act}

theorem step_follows {act : Act} (hr : Refined w.answered (w.clients c) t) (hv : Valid w)
    (ht : Tracked w) (hs : step w act = some w') : Follows t w'.answered (w'.clients c) := by
  cases act with
  | on c' act =>
    by_cases hc : c = c'
    · subst hc
      exact hr.follow_on hv ht hs
    · obtain ⟨-, client, -, rfl⟩ := step_on hs
      refine ⟨[], t, .nil, ?_⟩
      rw [setClient_clients, if_neg hc]
      exact hr
  | accepted c' => exact hr.follow_answer hv ht hs
  | rejected c' => exact hr.follow_answer hv ht hs

/-- In every run over the shared tree the list and the creation forms of each client are those of
a run of the system of one list, over the creations that the client knows. -/
theorem lists_refine (h : Run step (initial currentUser) as w) (c : ℕ) :
    ∃ bs t, Run CommunityListSystem.step (CommunityListSystem.initial (currentUser c)) bs t ∧
      Refined w.answered (w.clients c) t := by
  have hstart : Refined (initial currentUser).answered ((initial currentUser).clients c)
      (CommunityListSystem.initial (currentUser c)) := by
    refine ⟨rfl, rfl, rfl, ?_⟩
    constructor <;> simp [initial, CommunityListSystem.initial, Feed.empty, Feed.known]
  obtain ⟨bs, t, ht, -, hr⟩ := h.refines
    (R := fun w t => (Valid w ∧ Tracked w) ∧ Refined w.answered (w.clients c) t)
    ⟨run_tracked .nil, hstart⟩ fun {s a s' t} hR hs => by
      obtain ⟨⟨hv, ht⟩, hr⟩ := hR
      obtain ⟨bs, t', hrun, hr'⟩ := step_follows hr hv ht hs
      exact ⟨bs, t', hrun, ⟨step_valid hv hs, step_tracked ht hv hs⟩, hr'⟩
  exact ⟨bs, t, ht, hr⟩

theorem lists_refine_listedByTwo : ∃ bs t,
    Run CommunityListSystem.step (CommunityListSystem.initial (some "u")) bs t ∧
      t.root.arrayOfCommunities = [⟨"Swift", "c"⟩] := by
  have hexec : (exec step (initial fun _ => some "u") listedByTwo).map
      (fun w => (w.clients 1).list.arrayOfCommunities) = some [⟨"Swift", "c"⟩] := rfl
  obtain ⟨w, hw, hlist⟩ := run_of_exec_map hexec
  obtain ⟨bs, t, ht, hr⟩ := lists_refine hw 1
  exact ⟨bs, t, ht, by rw [hr.root, hlist]⟩

end LoopChat.SharedDatabase
