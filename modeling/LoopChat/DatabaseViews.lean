import LoopChat.DatabaseInvariant

/-!
# What a client sees of the tree

A client sees what was accepted and its own unanswered writes, all of it and nothing else; so it
sees something under the key of a community only after the creation was written.
-/
namespace LoopChat.SharedDatabase
open FirebaseValues PathStores TransitionRuns

variable {w w' : World} {c c' : ℕ} {a b : Write} {q : List String} {x value : Value}
  {k name : String} {ok : Bool}

/-- The write takes effect in what the client sees. -/
def Effective (w : World) (c : ℕ) (write : Write) : Prop :=
  (∃ c', (c', write, true) ∈ w.answered) ∨ write ∈ (w.clients c).unanswered

theorem Effective.mem_writes (h : Effective w c a) : a ∈ w.writes c := by
  rcases h with ⟨c', h⟩ | h
  · exact SharedDatabase.mem_writes.mpr (Or.inl ⟨c', true, h⟩)
  · exact SharedDatabase.mem_writes.mpr (Or.inr h)

/-- What another client has still to be answered stands at no path that this client knows. -/
theorem Valid.path_ne (h : Valid w) (hne : c' ≠ c) (ha : a ∈ w.writes c')
    (hb : b ∈ (w.clients c).unanswered) : a.path ≠ b.path := by
  rcases mem_writes.mp ha with ⟨c₀, ok, hdone⟩ | hopen
  · have hclear := (List.pairwise_append.mp (h.ordered c)).2.2 a
      (List.mem_map.mpr ⟨_, hdone, rfl⟩) b hb
    exact hclear.path_ne
  · exact (h.apart c' c hne a hopen b hb).path_ne

/-- Writes laid over a tree of writes, where each is clear of all that came before it. -/
theorem leaf_overlay_iff {done us : List Write} {root : Value}
    (hroot : ∀ q x, Leaf root q x ↔ ∃ a ∈ done, a.Puts q x)
    (hformed : ∀ a ∈ done ++ us, a.Formed) (hordered : (done ++ us).Pairwise Write.Clear) :
    Leaf (overlay (us.map fun write => (write.path, write.value)) root) q x ↔
      ∃ a ∈ done ++ us, a.Puts q x := by
  induction us generalizing done root with
  | nil => simpa [overlay] using hroot q x
  | cons b us ih =>
    rw [List.append_cons] at hformed hordered ⊢
    refine ih (fun q x => ?_) hformed hordered
    have hfresh : Fresh b.path root := by
      refine fresh_of_clear fun q x hleaf => ?_
      obtain ⟨a, ha, hputs⟩ := (hroot q x).mp hleaf
      have hpair := (List.pairwise_append.mp (List.pairwise_append.mp hordered).1).2.2
      exact ⟨a, hformed a (by simp [ha]), hpair a ha b (by simp), hputs⟩
    rw [leaf_set_iff hfresh, hroot]
    simp only [List.mem_append, List.mem_singleton, or_and_right, exists_or, exists_eq_left,
      Write.Puts]
    exact or_comm

theorem Valid.leaf_view_iff (h : Valid w) :
    Leaf (w.view c) q x ↔ ∃ a, Effective w c a ∧ a.Puts q x := by
  have hsub : ((w.answered.filter fun entry => entry.2.2).map fun entry => entry.2.1).Sublist
      (w.answered.map fun entry => entry.2.1) := (List.filter_sublist).map _
  have hmem : ∀ a, a ∈ ((w.answered.filter fun entry => entry.2.2).map fun entry => entry.2.1) ↔
      ∃ c', (c', a, true) ∈ w.answered := by
    intro a
    simp
  have hstored : ∀ q x, Leaf w.root q x ↔
      ∃ a ∈ (w.answered.filter fun entry => entry.2.2).map fun entry => entry.2.1,
        a.Puts q x := by
    intro q x
    simp only [hmem, h.stored]
    constructor
    · rintro ⟨c', a, ha, hputs⟩
      exact ⟨a, ⟨c', ha⟩, hputs⟩
    · rintro ⟨a, ⟨c', ha⟩, hputs⟩
      exact ⟨c', a, ha, hputs⟩
  rw [World.view, leaf_overlay_iff hstored]
  · simp only [List.mem_append, hmem, Effective]
  · intro a ha
    refine h.formed c a (List.mem_append.mpr ?_)
    exact (List.mem_append.mp ha).imp_left fun ha => hsub.subset ha
  · exact (h.ordered c).sublist (hsub.append_right _)

/-- The name under a key is what the effective creation gave. -/
theorem Valid.named_iff (h : Valid w) :
    Leaf (w.view c) ["communities", k, "CommunityName"] (.string name) ↔
      ∃ form, Effective w c (.community k [("CommunityName", .string name)] form) := by
  rw [h.leaf_view_iff]
  constructor
  · rintro ⟨a, ha, hputs⟩
    obtain ⟨name', form, hx, rfl⟩ := (h.formed c a ha.mem_writes).creation_of_puts hputs
    obtain rfl : name = name' := by simpa using hx
    exact ⟨form, ha⟩
  · rintro ⟨form, ha⟩
    exact ⟨_, ha, community_puts.mpr ⟨rfl, rfl⟩⟩

/-- A child of `communities` is listed exactly when its name is seen. -/
theorem decode_iff {v : Value} (hget : get ["communities", k] v = some value) :
    decodeCommunity k value = some ⟨name, k⟩ ↔
      Leaf v ["communities", k, "CommunityName"] (.string name) := by
  constructor
  · intro hdecode
    obtain ⟨fields, hvalue, hname, -⟩ := decodeCommunity_eq_some.mp hdecode
    exact leaf_of_string hget hvalue hname
  · rintro ⟨hleaf, -⟩
    have hpath : ["communities", k, "CommunityName"] =
        ["communities", k] ++ ["CommunityName"] := rfl
    rw [hpath, get_append, hget, Option.bind_some] at hleaf
    obtain ⟨y, hy, hget'⟩ := Option.bind_eq_some_iff.mp hleaf
    obtain rfl := Option.some.inj hget'
    cases value with
    | dict fields =>
      have hlookup : fields.lookup "CommunityName" = some (.string name) := hy
      exact decodeCommunity_eq_some.mpr ⟨fields, rfl, by simp [Fields.string, hlookup,
        Value.asString], rfl⟩
    | _ => cases hy

/-! ### What is seen was created -/

theorem bearing_strings {fields : Fields} (hne : fields ≠ [])
    (hstrings : ∀ entry ∈ fields, ∃ s, entry.2 = .string s) : Bearing (Value.dict fields) := by
  refine bearing_dict hne fun entry hentry => ?_
  obtain ⟨s, hs⟩ := hstrings entry hentry
  rw [hs]
  rfl

theorem Write.Formed.bearing (h : a.Formed) : Bearing a.value := by
  cases a with
  | community key fields form =>
    obtain ⟨name, -, rfl⟩ := h
    change Bearing (Value.dict [("CommunityName", .string name)])
    exact bearing_strings (by simp) (by simp)
  | message communityid key fields chat =>
    obtain ⟨name, userid, text, -, rfl⟩ := h
    change Bearing (Value.dict (dataArray name userid text))
    exact bearing_strings (by simp [dataArray]) (by simp [dataArray])

theorem Valid.full_view (h : Valid w) (hfull : Full w.root) (c : ℕ) : Full (w.view c) := by
  refine hfull.overlay fun write hmem => ?_
  obtain ⟨a, ha, rfl⟩ := List.mem_map.mp hmem
  exact (h.formed c a (mem_writes.mpr (Or.inr ha))).bearing

/-- What is written under the key of a community is written after its creation. -/
theorem Valid.created_under (h : Valid w) (ha : a ∈ w.writes c) :
    ∃ fields form, .community a.under fields form ∈ w.writes c := by
  cases a with
  | community key fields form => exact ⟨fields, form, ha⟩
  | message communityid key fields chat =>
    rcases mem_writes.mp ha with ⟨c', ok, hdone⟩ | hopen
    · obtain ⟨c₀, fields', form, ok₀, hcreated⟩ :=
        h.decided c' communityid key fields chat ok hdone
      exact ⟨fields', form, mem_writes.mpr (Or.inl ⟨c₀, ok₀, hcreated⟩)⟩
    · exact h.created c communityid key fields chat hopen

theorem Valid.created_of_seen (h : Valid w) (hfull : Full w.root)
    (hget : get ["communities", k] (w.view c) = some value) :
    ∃ fields form, .community k fields form ∈ w.writes c := by
  obtain ⟨r, y, hleaf⟩ := h.full_view hfull c "communities" [k] value hget
  have hbelow : Leaf (w.view c) (["communities", k] ++ r) y :=
    ⟨by rw [get_append, hget]; exact hleaf.1, hleaf.2⟩
  obtain ⟨a, ha, r', hpath, -⟩ := h.leaf_view_iff.mp hbelow
  have hunder : a.under = k := by
    cases a <;> simp_all [Write.path, Write.under]
  exact hunder ▸ h.created_under ha.mem_writes

/-! ### The list and the forms of a client -/

/-- The part of a client that chats do not touch. -/
structure SameList (client' client : Client) : Prop where
  currentUser : client'.currentUser = client.currentUser
  list : client'.list = client.list
  observers : client'.observers = client.observers
  raised : client'.raised = client.raised
  forms : client'.forms = client.forms

/-- What an act does to the list and the forms, with everything that was checked on the way. -/
inductive ListEffect (client : Client) (view : Value) : LocalAct → Client → Prop
  | signedIn (user : Option String) :
      ListEffect client view (.signedIn user) { client with currentUser := user }
  | appeared : ListEffect client view .viewDidAppear
      { client with list := { arrayOfCommunities := [] }, observers := client.observers + 1 }
  | added {o : ℕ} {key : String} {value : Value}
      (seen : get ["communities", key] view = some value)
      (registered : o < client.observers) (due : (o, key) ∉ client.raised) :
      ListEffect client view (.communityAdded o key) { client with
        list := (client.list.childAdded key value).1
        raised := client.raised ++ [(o, key)] }
  | pushed : ListEffect client view .pushCreateCommunity
      { client with forms := client.forms ++ [{}] }
  | edited {i : ℕ} {form : CreateCommunityVC} (text : String)
      (at_i : client.forms[i]? = some form) : ListEffect client view (.editName i text)
        (client.setForm i { form with addNewName := text })
  | createdNothing {i : ℕ} {form : CreateCommunityVC} (key : String)
      (at_i : client.forms[i]? = some form) (unnamed : form.addNewName = "") :
      ListEffect client view (.createCommunityButton i key) client
  | created {i : ℕ} {form : CreateCommunityVC} (key : String)
      (at_i : client.forms[i]? = some form) (named : form.addNewName ≠ "") :
      ListEffect client view (.createCommunityButton i key) { client with
        unanswered := client.unanswered ++
          [.community key [("CommunityName", .string form.addNewName)] i] }
  | chat {act : LocalAct} {client' : Client} (same : SameList client' client)
      (posts : client'.unanswered = client.unanswered ∨
        ∃ communityid key fields i, act.key = some key ∧
          client'.unanswered = client.unanswered ++ [.message communityid key fields i]) :
      ListEffect client view act client'

theorem SameList.refl (client : Client) : SameList client client := ⟨rfl, rfl, rfl, rfl, rfl⟩

theorem SameList.setChat (client : Client) (i : ℕ) (chat : Chat) :
    SameList (client.setChat i chat) client := ⟨rfl, rfl, rfl, rfl, rfl⟩

/-- A chat that appears loads its user and registers an observer of its own. -/
theorem same_of_chatDidAppear {client client' : Client} {view : Value} {i : ℕ}
    (h : client.step view (.chatDidAppear i) = some client') :
    SameList client' client ∧ client'.unanswered = client.unanswered := by
  obtain ⟨chat, hchat, h⟩ := Option.bind_eq_some_iff.mp h
  obtain ⟨calls, hcalls, heq⟩ := Option.bind_eq_some_iff.mp h
  obtain rfl := Option.some.inj heq
  have hi := (Client.onScreen_eq_some.mp hchat).1
  cases hv : chat.vc.viewDidAppear client.currentUser with
  | error trap => simp [hv, Except.toOption] at hcalls
  | ok found =>
    obtain rfl : found = calls := by simpa [hv, Except.toOption] using hcalls
    obtain ⟨userid, -, rfl⟩ := ChatScreentVC.viewDidAppear_eq_ok.mp hv
    cases hset : chat.vc.community with
    | none => simpa [ChatScreentVC.getMessage, hset, Client.perform] using SameList.refl client
    | some community =>
      simpa [ChatScreentVC.getMessage, hset, Client.perform, hi, Client.setChat] using
        SameList.setChat client i { chat with observers := chat.observers + 1 }

theorem Client.step_list {client client' : Client} {view : Value} {act : LocalAct}
    (h : client.step view act = some client') : ListEffect client view act client' := by
  cases act with
  | signedIn user =>
    obtain rfl := Option.some.inj h
    exact .signedIn user
  | viewDidAppear =>
    have heq : client' = { client with
        list := { arrayOfCommunities := [] }, observers := client.observers + 1 } := by
      cases hu : client.currentUser <;>
        simpa [step, CommunityVC.viewDidAppear, CommunityVC.presentLoginScreen,
          CommunityVC.observeCommunity, perform, hu, eq_comm] using h
    exact heq ▸ .appeared
  | communityAdded o key =>
    obtain ⟨value, hseen, heq⟩ := Option.bind_eq_some_iff.mp h
    split_ifs at heq with hdue
    obtain rfl := Option.some.inj heq
    exact .added hseen hdue.1 hdue.2
  | didSelectItemAt row =>
    obtain ⟨vc, -, heq⟩ := Option.bind_eq_some_iff.mp h
    obtain rfl := Option.some.inj heq
    exact .chat ⟨rfl, rfl, rfl, rfl, rfl⟩ (Or.inl rfl)
  | pushCreateCommunity =>
    obtain rfl := Option.some.inj h
    exact .pushed
  | editName i text =>
    obtain ⟨form, hform, heq⟩ := Option.bind_eq_some_iff.mp h
    obtain rfl := Option.some.inj heq
    exact .edited text hform
  | createCommunityButton i key =>
    obtain ⟨form, hform, heq⟩ := Option.bind_eq_some_iff.mp h
    obtain rfl := Option.some.inj heq
    unfold CreateCommunityVC.createCommunityButton
    split_ifs with hname
    · exact .createdNothing key hform hname
    · exact .created key hform hname
  | chatDidAppear i =>
    obtain ⟨hsame, hu⟩ := same_of_chatDidAppear h
    exact .chat hsame (Or.inl hu)
  | pop i =>
    obtain ⟨chat, -, heq⟩ := Option.bind_eq_some_iff.mp h
    obtain rfl := Option.some.inj heq
    exact .chat (.setChat _ _ _) (Or.inl rfl)
  | userNameAnswer i userid snapshot =>
    obtain ⟨chat, -, h⟩ := Option.bind_eq_some_iff.mp h
    obtain ⟨vc, -, heq⟩ := Option.bind_eq_some_iff.mp h
    obtain rfl := Option.some.inj heq
    exact .chat (.setChat _ _ _) (Or.inl rfl)
  | editMessage i text =>
    obtain ⟨chat, -, heq⟩ := Option.bind_eq_some_iff.mp h
    obtain rfl := Option.some.inj heq
    exact .chat (.setChat _ _ _) (Or.inl rfl)
  | sendMessageAction i key =>
    obtain ⟨chat, -, heq⟩ := Option.bind_eq_some_iff.mp h
    obtain rfl := Option.some.inj heq
    rcases chat.vc.sendMessageAction_cases client.currentUser with hn | ⟨call, hc⟩
    · rw [hn]
      exact .chat ⟨rfl, rfl, rfl, rfl, rfl⟩ (Or.inl rfl)
    · obtain ⟨userid, community, -, -, -, rfl⟩ :=
        ChatScreentVC.sendMessageAction_eq_singleton.mp hc
      rw [hc]
      exact .chat ⟨rfl, rfl, rfl, rfl, rfl⟩ (Or.inr ⟨_, key, _, i, rfl, rfl⟩)
  | messageAdded i o key =>
    obtain ⟨chat, -, h⟩ := Option.bind_eq_some_iff.mp h
    obtain ⟨community, -, h⟩ := Option.bind_eq_some_iff.mp h
    obtain ⟨value, -, heq⟩ := Option.bind_eq_some_iff.mp h
    split_ifs at heq
    obtain rfl := Option.some.inj heq
    exact .chat (.setChat _ _ _) (Or.inl rfl)

/-- The client after the answer to its oldest write. -/
theorem answer_client {rest : List Write} (h : w.answer c ok = some w')
    (hun : (w.clients c).unanswered = b :: rest) : w'.clients c =
      ({ w.clients c with unanswered := rest } : Client).completed (!ok) b := by
  simp only [World.answer, hun, Option.some.injEq] at h
  rw [← h]
  exact Function.update_self c _ w.clients

/-! ### Events and forms -/

structure Tracked (w : World) : Prop where
  full : Full w.root
  registered : ∀ c o k, (o, k) ∈ (w.clients c).raised → o < (w.clients c).observers
  created : ∀ c o k, (o, k) ∈ (w.clients c).raised →
    ∃ fields form, .community k fields form ∈ w.writes c
  forms : ∀ c k fields i, .community k fields i ∈ (w.clients c).unanswered →
    i < (w.clients c).forms.length

namespace ListEffect

variable {client client' : Client} {view : Value} {act : LocalAct} {o i : ℕ} {fields : Fields}

/-- Events are raised to registered observers, for what is seen. -/
theorem raised (h : ListEffect client view act client') (hmem : (o, k) ∈ client'.raised) :
    (o, k) ∈ client.raised ∨
      o < client.observers ∧ ∃ value, get ["communities", k] view = some value := by
  cases h with
  | added seen registered due =>
    refine (List.mem_append.mp hmem).imp_right fun hnew => ?_
    obtain ⟨rfl, rfl⟩ := Prod.mk.inj (List.mem_singleton.mp hnew)
    exact ⟨registered, _, seen⟩
  | chat same posts => exact Or.inl (same.raised ▸ hmem)
  | _ => exact Or.inl hmem

theorem observers_le (h : ListEffect client view act client') :
    client.observers ≤ client'.observers := by
  cases h with
  | appeared => exact Nat.le_succ _
  | chat same posts => exact same.observers.ge
  | _ => exact le_rfl

theorem forms_le (h : ListEffect client view act client') :
    client.forms.length ≤ client'.forms.length := by
  cases h with
  | pushed => simp
  | edited text at_i => simp [Client.setForm]
  | chat same posts => exact (congrArg List.length same.forms).ge
  | _ => exact le_rfl

/-- A creation is made by a form that is there. -/
theorem creation (h : ListEffect client view act client')
    (hmem : .community k fields i ∈ client'.unanswered) :
    .community k fields i ∈ client.unanswered ∨ i < client.forms.length := by
  cases h with
  | created key at_i named =>
    refine (List.mem_append.mp hmem).imp_right fun hnew => ?_
    obtain ⟨-, -, rfl⟩ := Write.community.inj (List.mem_singleton.mp hnew)
    exact (List.getElem?_eq_some_iff.mp at_i).1
  | chat same posts =>
    rcases posts with heq | ⟨communityid, key, fields', chat, -, heq⟩
    · exact Or.inl (heq ▸ hmem)
    · rw [heq] at hmem
      exact Or.inl ((List.mem_append.mp hmem).resolve_right (by simp))
  | _ => exact Or.inl hmem

end ListEffect

theorem Tracked.on (ht : Tracked w) (h : Valid w) {act : LocalAct}
    (hs : step w (.on c act) = some w') : Tracked w' := by
  obtain ⟨new, hext⟩ := step_extended hs
  obtain ⟨-, client, hclient, rfl⟩ := step_on hs
  have heffect := Client.step_list hclient
  have hnew : ∀ {o : ℕ} {k : String}, (o, k) ∈ client.raised →
      o < (w.clients c).observers ∧ ∃ fields form, .community k fields form ∈ w.writes c := by
    intro o k hmem
    rcases heffect.raised hmem with hold | ⟨hlt, value, hseen⟩
    · exact ⟨ht.registered c o k hold, ht.created c o k hold⟩
    · exact ⟨hlt, h.created_of_seen ht.full hseen⟩
  constructor
  case full => exact ht.full
  case registered =>
    intro c' o k hmem
    rw [setClient_clients] at hmem ⊢
    split_ifs at hmem ⊢ with hc
    · exact (hnew hmem).1.trans_le heffect.observers_le
    · exact ht.registered c' o k hmem
  case created =>
    intro c' o k hmem
    rw [setClient_clients] at hmem
    suffices hcreated : ∃ fields form, .community k fields form ∈ w.writes c' by
      obtain ⟨fields, form, hcreated⟩ := hcreated
      exact ⟨fields, form, hext.writes_subset c' hcreated⟩
    split_ifs at hmem with hc
    · exact hc ▸ (hnew hmem).2
    · exact ht.created c' o k hmem
  case forms =>
    intro c' k fields i hmem
    rw [setClient_clients] at hmem ⊢
    split_ifs at hmem ⊢ with hc
    · rcases heffect.creation hmem with hold | hlt
      · exact (ht.forms c k fields i hold).trans_le heffect.forms_le
      · exact hlt.trans_le heffect.forms_le
    · exact ht.forms c' k fields i hmem

/-- The completion handlers leave the list alone and change texts of forms only. -/
theorem completed_list (client : Client) (error : Bool) (b : Write) :
    (client.completed error b).list = client.list ∧
      (client.completed error b).raised = client.raised ∧
        (client.completed error b).observers = client.observers ∧
          (client.completed error b).forms.length = client.forms.length := by
  cases b <;> simp [Client.completed]

theorem Answered.same_list {rest : List Write} (h : Answered w c ok b rest w')
    (hs : w.answer c ok = some w') (c' : ℕ) :
    (w'.clients c').list = (w.clients c').list ∧
      (w'.clients c').raised = (w.clients c').raised ∧
        (w'.clients c').observers = (w.clients c').observers ∧
          (w'.clients c').forms.length = (w.clients c').forms.length := by
  by_cases hc : c' = c
  · rw [hc, answer_client hs h.unanswered]
    exact completed_list _ _ _
  · rw [h.others c' hc]
    exact ⟨rfl, rfl, rfl, rfl⟩

theorem Tracked.answer (ht : Tracked w) (h : Valid w) (hs : w.answer c ok = some w') :
    Tracked w' := by
  obtain ⟨b, rest, hans⟩ := answer_eq_some hs
  have hb : b ∈ w.writes c := mem_writes.mpr (Or.inr (by simp [hans.unanswered]))
  have hclient := fun c' => (hans.same_list hs c').2
  constructor
  case full =>
    rw [hans.root]
    split_ifs
    · exact ht.full.set (h.formed c b hb).bearing
    · exact ht.full
  case registered =>
    intro c' o k hmem
    rw [(hclient c').2.1]
    exact ht.registered c' o k ((hclient c').1 ▸ hmem)
  case created =>
    intro c' o k hmem
    obtain ⟨fields, form, hcreated⟩ := ht.created c' o k ((hclient c').1 ▸ hmem)
    exact ⟨fields, form, hans.mem_writes.mpr (Or.inl hcreated)⟩
  case forms =>
    intro c' k fields i hmem
    rw [(hclient c').2.2]
    exact ht.forms c' k fields i (hans.unanswered_subset c' hmem)

theorem step_tracked {act : Act} (ht : Tracked w) (h : Valid w) (hs : step w act = some w') :
    Tracked w' := by
  cases act with
  | on c act => exact ht.on h hs
  | accepted c => exact ht.answer h hs
  | rejected c => exact ht.answer h hs

theorem run_tracked {currentUser : ℕ → Option String} {as : List Act}
    (h : Run step (initial currentUser) as w) : Valid w ∧ Tracked w := by
  refine h.invariant (I := fun w => Valid w ∧ Tracked w) ⟨initial_valid currentUser, ?_⟩
    fun hI hs => ⟨step_valid hI.1 hs, step_tracked hI.2 hI.1 hs⟩
  constructor
  case full => exact full_empty
  all_goals simp [initial]

end LoopChat.SharedDatabase
