import LoopChat.SharedDatabase

/-!
# The writes behind the tree

A creation would remove the messages below its key. None stands there when it is accepted: a
community is only opened where its creation was made before or answered already, and the writes
of a client are answered in order. The invariant says this of the writes, and that whatever is
listed, opened or shown goes back to one of them.
-/
namespace LoopChat.SharedDatabase
open FirebaseValues PathStores TransitionRuns

namespace Write

/-- The community that a write creates or belongs to. -/
def under : Write → String
  | community key _ _ => key
  | message communityid _ _ _ => communityid

def key : Write → String
  | community key _ _ => key
  | message _ key _ _ => key

def Formed : Write → Prop
  | community _ fields _ => ∃ name, name ≠ "" ∧ fields = [("CommunityName", .string name)]
  | message _ _ fields _ => ∃ name userid text, text ≠ "" ∧ fields = dataArray name userid text

/-- The later write does not stand at the path of the earlier one or above it. -/
def Clear (earlier later : Write) : Prop := ¬ later.path <+: earlier.path

/-- A leaf of the value written, where it stands in the tree. -/
def Puts (write : Write) (q : List String) (x : Value) : Prop :=
  ∃ r, q = write.path ++ r ∧ Leaf write.value r x

end Write

variable {a b : Write} {p q r : List String} {x : Value} {root : Value} {name : String}

/-- The leaves of a dictionary of strings are its entries. -/
theorem leaf_strings {fields : Fields} (hstrings : ∀ entry ∈ fields, ∃ s, entry.2 = .string s) :
    Leaf (Value.dict fields) r x ↔
      ∃ f s, r = [f] ∧ x = .string s ∧ fields.lookup f = some (.string s) := by
  constructor
  · intro h
    cases r with
    | nil => exact absurd h not_leaf_nil_dict
    | cons f r =>
      obtain ⟨v, hv, hleaf⟩ := leaf_cons.mp h
      have hlookup : fields.lookup f = some v := hv
      obtain ⟨before, after, rfl, -⟩ := List.lookup_eq_some_iff.mp hlookup
      obtain ⟨s, hs⟩ := hstrings (f, v) (by simp)
      obtain rfl : v = .string s := hs
      cases r with
      | nil =>
        obtain rfl : Value.string s = x := Option.some.inj hleaf.1
        exact ⟨f, s, rfl, rfl, hlookup⟩
      | cons g r =>
        obtain ⟨u, hu, -⟩ := leaf_cons.mp hleaf
        cases hu
  · rintro ⟨f, s, rfl, rfl, hlookup⟩
    exact leaf_cons.mpr ⟨.string s, hlookup, rfl, rfl⟩

theorem community_puts {key : String} {form : ℕ} :
    (Write.community key [("CommunityName", .string name)] form).Puts q x ↔
      q = ["communities", key, "CommunityName"] ∧ x = .string name := by
  have hleaf : ∀ r, Leaf (Write.community key [("CommunityName", .string name)] form).value r x ↔
      r = ["CommunityName"] ∧ x = .string name := by
    intro r
    rw [Write.value, Write.fields, leaf_strings fun entry hentry =>
      ⟨name, by rw [List.mem_singleton.mp hentry]⟩]
    constructor
    · rintro ⟨f, s, rfl, rfl, hlookup⟩
      rw [List.lookup_cons] at hlookup
      split at hlookup
      · rename_i hf
        obtain rfl : name = s := by simpa using hlookup
        exact ⟨by rw [eq_of_beq hf], rfl⟩
      · cases hlookup
    · rintro ⟨rfl, rfl⟩
      exact ⟨_, name, rfl, rfl, rfl⟩
  constructor
  · rintro ⟨r, rfl, hr⟩
    obtain ⟨rfl, rfl⟩ := (hleaf r).mp hr
    exact ⟨rfl, rfl⟩
  · rintro ⟨rfl, rfl⟩
    exact ⟨["CommunityName"], rfl, (hleaf _).mpr ⟨rfl, rfl⟩⟩

theorem message_puts {communityid key userid text : String} {chat : ℕ} :
    (Write.message communityid key (dataArray name userid text) chat).Puts q x ↔
      ∃ f s, q = ["communities", communityid, "Messages", key, f] ∧ x = .string s ∧
        (dataArray name userid text).lookup f = some (.string s) := by
  have hstrings : ∀ entry ∈ dataArray name userid text, ∃ s, entry.2 = .string s := by
    intro entry hentry
    simp only [dataArray, List.mem_cons, List.not_mem_nil, or_false] at hentry
    rcases hentry with rfl | rfl | rfl
    · exact ⟨name, rfl⟩
    · exact ⟨userid, rfl⟩
    · exact ⟨text, rfl⟩
  constructor
  · rintro ⟨r, rfl, hr⟩
    obtain ⟨f, s, rfl, rfl, hlookup⟩ := (leaf_strings hstrings).mp hr
    exact ⟨f, s, rfl, rfl, hlookup⟩
  · rintro ⟨f, s, rfl, rfl, hlookup⟩
    exact ⟨[f], rfl, (leaf_strings hstrings).mpr ⟨f, s, rfl, rfl, hlookup⟩⟩

/-- A name under a key was put there by the creation that gave it. -/
theorem Write.Formed.creation_of_puts {k : String} (h : a.Formed)
    (hputs : a.Puts ["communities", k, "CommunityName"] x) :
    ∃ name form, x = .string name ∧ a = .community k [("CommunityName", .string name)] form := by
  cases a with
  | community key fields form =>
    obtain ⟨name, -, rfl⟩ := h
    obtain ⟨hq, hx⟩ := community_puts.mp hputs
    obtain rfl : k = key := by simpa using hq
    exact ⟨name, form, hx, rfl⟩
  | message communityid key fields chat =>
    obtain ⟨name, userid, text, -, rfl⟩ := h
    obtain ⟨f, s, hq, -⟩ := message_puts.mp hputs
    simp at hq

/-- A write that is clear of all that was accepted stands nowhere near a leaf. -/
theorem fresh_of_clear (h : ∀ q x, Leaf root q x → ∃ a : Write, a.Formed ∧ a.Clear b ∧
    a.Puts q x) : Fresh b.path root := by
  intro q x hleaf
  obtain ⟨a, hformed, hclear, hputs⟩ := h q x hleaf
  unfold Write.Clear at hclear
  cases a with
  | community key fields form =>
    obtain ⟨name, -, rfl⟩ := hformed
    obtain ⟨rfl, -⟩ := community_puts.mp hputs
    cases b <;> simp_all [Write.path, List.cons_prefix_cons]
  | message communityid key fields chat =>
    obtain ⟨name, userid, text, -, rfl⟩ := hformed
    obtain ⟨f, s, rfl, -, -⟩ := message_puts.mp hputs
    cases b <;> simp_all [Write.path, List.cons_prefix_cons]

/-! ### The invariant -/

/-- The writes that a client knows to have been answered or has made itself, in order. -/
def World.writes (w : World) (c : ℕ) : List Write :=
  w.answered.map (fun entry => entry.2.1) ++ (w.clients c).unanswered

/-- The write was accepted, or the client made it and it is unanswered or was rejected. -/
def Backed (w : World) (c : ℕ) (write : Write) : Prop :=
  (∃ c', (c', write, true) ∈ w.answered) ∨ write ∈ (w.clients c).unanswered ∨
    (c, write, false) ∈ w.answered

/-- The write behind an entry of a list. -/
def creation (community : Community) (form : ℕ) : Write :=
  .community community.communityID [("CommunityName", .string community.communityName)] form

/-- The write behind a message in a chat. -/
def posting (community : Community) (key : String) (message : Message) (chat : ℕ) : Write :=
  .message community.communityID key
    (dataArray message.senderName message.senderID message.messageBody) chat

structure Valid (w : World) : Prop where
  ordered : ∀ c, (w.writes c).Pairwise Write.Clear
  apart : ∀ c c', c ≠ c' → ∀ a ∈ (w.clients c).unanswered, ∀ b ∈ (w.clients c').unanswered,
    a.Clear b
  issued : ∀ c, ∀ a ∈ w.writes c, a.under ∈ w.issued ∧ a.key ∈ w.issued
  formed : ∀ c, ∀ a ∈ w.writes c, a.Formed
  stored : ∀ q x, Leaf w.root q x ↔ ∃ c a, (c, a, true) ∈ w.answered ∧ a.Puts q x
  known : ∀ c community, (w.clients c).Lists community ∨ (w.clients c).Opens community →
    ∃ form, Backed w c (creation community form)
  shown : ∀ c community message, (w.clients c).Shows community message →
    ∃ key chat, Backed w c (posting community key message chat)
  created : ∀ c communityid key fields chat,
    .message communityid key fields chat ∈ (w.clients c).unanswered →
      ∃ fields' form, .community communityid fields' form ∈ w.writes c
  decided : ∀ c communityid key fields chat ok,
    (c, .message communityid key fields chat, ok) ∈ w.answered →
      ∃ c' fields' form ok', (c', .community communityid fields' form, ok') ∈ w.answered

variable {w w' : World} {c : ℕ} {ok : Bool} {community : Community} {message : Message}
  {value : Value}

theorem mem_writes : a ∈ w.writes c ↔
    (∃ c' ok, (c', a, ok) ∈ w.answered) ∨ a ∈ (w.clients c).unanswered := by
  simp [World.writes]

theorem Backed.mem_writes (h : Backed w c a) : a ∈ w.writes c := by
  rcases h with ⟨c', h⟩ | h | h
  · exact SharedDatabase.mem_writes.mpr (Or.inl ⟨c', true, h⟩)
  · exact SharedDatabase.mem_writes.mpr (Or.inr h)
  · exact SharedDatabase.mem_writes.mpr (Or.inl ⟨c, false, h⟩)

theorem Write.Clear.path_ne (h : a.Clear b) : a.path ≠ b.path := by
  intro heq
  exact h (heq ▸ List.prefix_refl _)

/-- No two writes are made to one path. -/
theorem Valid.path_inj (h : Valid w) (ha : a ∈ w.writes c) (hb : b ∈ w.writes c)
    (hpath : a.path = b.path) : a = b := by
  have hnodup : ((w.writes c).map Write.path).Nodup :=
    List.pairwise_map.mpr ((h.ordered c).imp fun hclear => hclear.path_ne)
  exact List.inj_on_of_nodup_map hnodup ha hb hpath

/-- What a client sees was accepted or is its own. -/
theorem Valid.seen (h : Valid w) (hleaf : Leaf (w.view c) q x) :
    ∃ a, Backed w c a ∧ a.Puts q x := by
  rcases leaf_of_overlay hleaf with ⟨write, hmem, hr⟩ | hroot
  · obtain ⟨a, ha, rfl⟩ := List.mem_map.mp hmem
    exact ⟨a, Or.inr (Or.inl ha), hr⟩
  · obtain ⟨c', a, ha, hputs⟩ := (h.stored q x).mp hroot
    exact ⟨a, Or.inl ⟨c', ha⟩, hputs⟩

theorem leaf_of_string {v : Value} {fields : Fields} {f s : String} (hget : get p v = some value)
    (hvalue : value = .dict fields) (hstring : fields.string f = some s) :
    Leaf v (p ++ [f]) (.string s) := by
  subst hvalue
  obtain ⟨x, hlookup, hx⟩ := Option.bind_eq_some_iff.mp hstring
  have hstring : x = .string s := by
    cases x with
    | string t => exact congrArg Value.string (Option.some.inj hx)
    | _ => cases hx
  subst hstring
  have hchild : child (Value.dict fields) f = some (.string s) := hlookup
  refine ⟨?_, rfl⟩
  rw [get_append, hget, Option.bind_some, PathStores.get, hchild]
  rfl

/-- The listing of a community goes back to its creation. -/
theorem Valid.seen_community (h : Valid w)
    (hget : get ["communities", community.communityID] (w.view c) = some value)
    (hdecode : decodeCommunity community.communityID value = some community) :
    ∃ form, Backed w c (creation community form) := by
  obtain ⟨fields, hvalue, hname, -⟩ := decodeCommunity_eq_some.mp hdecode
  obtain ⟨a, hbacked, hputs⟩ := h.seen (leaf_of_string hget hvalue hname)
  obtain ⟨name, form, hx, rfl⟩ := (h.formed c a hbacked.mem_writes).creation_of_puts hputs
  obtain rfl : community.communityName = name := by simpa using hx
  exact ⟨form, hbacked⟩

/-- The three texts of a message in a chat come from one write. -/
theorem Valid.seen_message (h : Valid w) {key : String}
    (hget : get ["communities", community.communityID, "Messages", key] (w.view c) = some value)
    (hdecode : decodeMessage value = some message) :
    ∃ chat, Backed w c (posting community key message chat) := by
  obtain ⟨fields, hvalue, hbody, hname, hsender⟩ := decodeMessage_eq_some.mp hdecode
  have hwrite : ∀ {f s : String}, fields.string f = some s → ∃ name userid text chat,
      Backed w c (.message community.communityID key (dataArray name userid text) chat) ∧
        (dataArray name userid text).lookup f = some (.string s) := by
    intro f s hs
    obtain ⟨a, hbacked, hputs⟩ := h.seen (leaf_of_string hget hvalue hs)
    have hformed := h.formed c a hbacked.mem_writes
    cases a with
    | community key' fields' form =>
      obtain ⟨name, -, rfl⟩ := hformed
      obtain ⟨hq, -⟩ := community_puts.mp hputs
      simp at hq
    | message communityid key' fields' chat =>
      obtain ⟨name, userid, text, -, rfl⟩ := hformed
      obtain ⟨f', s', hq, hx, hlookup⟩ := message_puts.mp hputs
      obtain ⟨rfl, rfl, rfl⟩ :
          community.communityID = communityid ∧ key = key' ∧ f = f' := by simpa using hq
      obtain rfl : s = s' := by simpa using hx
      exact ⟨name, userid, text, chat, hbacked, hlookup⟩
  obtain ⟨n₁, u₁, t₁, chat, hbacked, hbody⟩ := hwrite hbody
  obtain ⟨n₂, u₂, t₂, chat₂, hbacked₂, hname⟩ := hwrite hname
  obtain ⟨n₃, u₃, t₃, chat₃, hbacked₃, hsender⟩ := hwrite hsender
  obtain ⟨-, -, h₂, -⟩ := Write.message.inj
    (h.path_inj hbacked.mem_writes hbacked₂.mem_writes rfl)
  obtain ⟨-, -, h₃, -⟩ := Write.message.inj
    (h.path_inj hbacked.mem_writes hbacked₃.mem_writes rfl)
  obtain ⟨rfl, rfl, rfl⟩ := dataArray_inj.mp h₂
  obtain ⟨rfl, rfl, rfl⟩ := dataArray_inj.mp h₃
  obtain rfl : t₁ = message.messageBody := by simpa [dataArray, List.lookup] using hbody
  obtain rfl : n₁ = message.senderName := by simpa [dataArray, List.lookup] using hname
  obtain rfl : u₁ = message.senderID := by simpa [dataArray, List.lookup] using hsender
  exact ⟨chat, hbacked⟩

/-! ### What one client does -/

/-- The world after an act of one client. -/
def World.setClient (w : World) (c : ℕ) (client : Client) (keys : List String) : World :=
  { w with clients := Function.update w.clients c client, issued := keys ++ w.issued }

@[simp] theorem setClient_clients (w : World) (c c' : ℕ) (client : Client) (keys : List String) :
    (w.setClient c client keys).clients c' = if c' = c then client else w.clients c' := by
  simp [World.setClient, Function.update_apply]

theorem step_on {act : LocalAct} (h : step w (.on c act) = some w') :
    (∀ key, act.key = some key → key ∉ w.issued) ∧ ∃ client,
      (w.clients c).step (w.view c) act = some client ∧
        w' = w.setClient c client act.key.toList := by
  unfold step at h
  replace h : (if ∃ key ∈ act.key, key ∈ w.issued then none else _) = some w' := h
  split_ifs at h with hissued
  obtain ⟨client, hclient, heq⟩ := Option.bind_eq_some_iff.mp h
  refine ⟨fun key hkey hmem => hissued ⟨key, hkey, hmem⟩, client, hclient, ?_⟩
  exact (Option.some.inj heq).symm

variable {key : String} {c' : ℕ}

/-- Behind a community that is open on a client is a creation that the client knows of. -/
theorem Valid.opens_created (h : Valid w) (ho : (w.clients c).Opens community) :
    ∃ form, creation community form ∈ w.writes c := by
  obtain ⟨form, hbacked⟩ := h.known c community (Or.inr ho)
  exact ⟨form, hbacked.mem_writes⟩

/-- A write under a new key removes nothing of any other write. -/
theorem Valid.clear_of_made (h : Valid w) (hm : Made (w.clients c) key b) (hkey : key ∉ w.issued)
    (ha : a ∈ w.writes c') : a.Clear b := by
  intro hprefix
  obtain ⟨hunder, hown⟩ := h.issued c' a ha
  cases hm <;> cases a <;> simp_all [Write.path, Write.under, Write.key]

/-- And no unanswered write of another client removes anything of it. -/
theorem Valid.made_clear (h : Valid w) (hm : Made (w.clients c) key b) (hkey : key ∉ w.issued)
    (hne : c' ≠ c) (ha : a ∈ (w.clients c').unanswered) : b.Clear a := by
  intro hprefix
  obtain ⟨hunder, hown⟩ := h.issued c' a (mem_writes.mpr (Or.inr ha))
  cases hm with
  | community form named => cases a <;> simp_all [Write.path, Write.under, Write.key]
  | @message community text name userid chat opens filled =>
    cases a with
    | message => simp_all [Write.path, Write.key]
    | community k fields form =>
      obtain rfl : k = community.communityID := by simpa [Write.path] using hprefix
      obtain ⟨form', hcreated⟩ := h.opens_created opens
      rcases mem_writes.mp hcreated with ⟨c₀, ok, hdone⟩ | hopen
      · have hclear := (List.pairwise_append.mp (h.ordered c')).2.2 (creation community form')
          (List.mem_map.mpr ⟨_, hdone, rfl⟩) _ ha
        exact hclear.path_ne rfl
      · exact (h.apart c c' (Ne.symm hne) _ hopen _ ha).path_ne rfl

theorem Made.formed {client : Client} (h : Made client key b) : b.Formed := by
  cases h with
  | community form named => exact ⟨_, named, rfl⟩
  | message name userid chat opens filled => exact ⟨_, _, _, filled, rfl⟩

/-- The world after an act of one client that made the writes `new`. -/
structure Extended (w : World) (c : ℕ) (new : List Write) (w' : World) : Prop where
  unanswered : ∀ c', (w'.clients c').unanswered =
    (w.clients c').unanswered ++ if c' = c then new else []
  answered : w'.answered = w.answered
  issued : w.issued ⊆ w'.issued
  made : ∀ b ∈ new, ∃ key, key ∉ w.issued ∧ key ∈ w'.issued ∧ Made (w.clients c) key b
  ordered : new.Pairwise Write.Clear

theorem step_extended {act : LocalAct} (hs : step w (.on c act) = some w') :
    ∃ new, Extended w c new w' := by
  obtain ⟨hfresh, client, hclient, rfl⟩ := step_on hs
  have hun : ∀ new, client.unanswered = (w.clients c).unanswered ++ new → ∀ c',
      ((w.setClient c client act.key.toList).clients c').unanswered =
        (w.clients c').unanswered ++ if c' = c then new else [] := by
    intro new hnew c'
    by_cases hc : c' = c
    · simp [hc, hnew]
    · simp [hc]
  rcases (Client.step_spec hclient).writes with hsame | ⟨key, write, hkey, hnew, hmade⟩
  · exact ⟨[], hun [] (by simpa using hsame), rfl, List.subset_append_right _ _, by simp,
      List.Pairwise.nil⟩
  · refine ⟨[write], hun [write] hnew, rfl, List.subset_append_right _ _, fun b hb => ?_,
      List.pairwise_singleton _ _⟩
    obtain rfl := List.mem_singleton.mp hb
    exact ⟨key, hfresh key hkey, List.mem_append_left _ (Option.mem_toList.mpr hkey), hmade⟩

namespace Extended

variable {new : List Write}

theorem mem_unanswered (h : Extended w c new w') (ha : a ∈ (w'.clients c').unanswered) :
    a ∈ (w.clients c').unanswered ∨ c' = c ∧ a ∈ new := by
  rw [h.unanswered] at ha
  refine (List.mem_append.mp ha).imp_right fun ha => ?_
  split_ifs at ha with hc
  · exact ⟨hc, ha⟩
  · simp at ha

theorem writes (h : Extended w c new w') (c' : ℕ) :
    w'.writes c' = w.writes c' ++ if c' = c then new else [] := by
  rw [World.writes, World.writes, h.unanswered, h.answered, List.append_assoc]

theorem mem_writes (h : Extended w c new w') (ha : a ∈ w'.writes c') :
    a ∈ w.writes c' ∨ c' = c ∧ a ∈ new := by
  rw [h.writes] at ha
  refine (List.mem_append.mp ha).imp_right fun ha => ?_
  split_ifs at ha with hc
  · exact ⟨hc, ha⟩
  · simp at ha

theorem writes_subset (h : Extended w c new w') (c' : ℕ) : w.writes c' ⊆ w'.writes c' := by
  rw [h.writes]
  exact List.subset_append_left _ _

theorem backed (h : Extended w c new w') (ha : Backed w c' a) : Backed w' c' a := by
  rw [Backed, h.answered, h.unanswered]
  exact ha.imp_right (Or.imp_left (List.mem_append_left _))

theorem clear (h : Extended w c new w') (hv : Valid w) (ha : a ∈ w.writes c') (hb : b ∈ new) :
    a.Clear b := by
  obtain ⟨key, hfresh, -, hm⟩ := h.made b hb
  exact hv.clear_of_made hm hfresh ha

theorem ordered_writes (h : Extended w c new w') (hv : Valid w) (c' : ℕ) :
    (w'.writes c').Pairwise Write.Clear := by
  rw [h.writes]
  refine List.pairwise_append.mpr ⟨hv.ordered c', ?_, fun a ha b hb => ?_⟩
  · split_ifs
    · exact h.ordered
    · exact List.Pairwise.nil
  · split_ifs at hb
    · exact h.clear hv ha hb
    · simp at hb

theorem apart (h : Extended w c new w') (hv : Valid w) {c₁ c₂ : ℕ} (hne : c₁ ≠ c₂)
    (ha : a ∈ (w'.clients c₁).unanswered) (hb : b ∈ (w'.clients c₂).unanswered) : a.Clear b := by
  rcases h.mem_unanswered ha with hold | ⟨rfl, hadded⟩
  · rcases h.mem_unanswered hb with hold' | ⟨rfl, hadded'⟩
    · exact hv.apart c₁ c₂ hne a hold b hold'
    · exact h.clear hv (SharedDatabase.mem_writes.mpr (Or.inr hold)) hadded'
  · rcases h.mem_unanswered hb with hold' | ⟨rfl, -⟩
    · obtain ⟨key, hfresh, -, hm⟩ := h.made a hadded
      exact hv.made_clear hm hfresh (Ne.symm hne) hold'
    · exact absurd rfl hne

theorem issued_writes (h : Extended w c new w') (hv : Valid w) (ha : a ∈ w'.writes c') :
    a.under ∈ w'.issued ∧ a.key ∈ w'.issued := by
  rcases h.mem_writes ha with ha | ⟨rfl, ha⟩
  · exact (hv.issued c' a ha).imp (@h.issued _) (@h.issued _)
  · obtain ⟨key, -, hissued, hm⟩ := h.made a ha
    cases hm with
    | community form named => exact ⟨hissued, hissued⟩
    | message name userid chat opens filled =>
      obtain ⟨form, hcreated⟩ := hv.opens_created opens
      exact ⟨h.issued (hv.issued c' _ hcreated).1, hissued⟩

theorem formed_writes (h : Extended w c new w') (hv : Valid w) (ha : a ∈ w'.writes c') :
    a.Formed := by
  rcases h.mem_writes ha with ha | ⟨-, ha⟩
  · exact hv.formed c' a ha
  · obtain ⟨key, -, -, hm⟩ := h.made a ha
    exact hm.formed

/-- A message is written where the community is open, so its creation was written before. -/
theorem created (h : Extended w c new w') (hv : Valid w) {communityid : String} {fields : Fields}
    {chat : ℕ} (ha : .message communityid key fields chat ∈ (w'.clients c').unanswered) :
    ∃ fields' form, .community communityid fields' form ∈ w'.writes c' := by
  rcases h.mem_unanswered ha with hold | ⟨rfl, hadded⟩
  · obtain ⟨fields', form, hcreated⟩ := hv.created c' communityid key fields chat hold
    exact ⟨fields', form, h.writes_subset c' hcreated⟩
  · obtain ⟨key', -, -, hm⟩ := h.made _ hadded
    cases hm with
    | message name userid chat opens filled =>
      obtain ⟨form, hcreated⟩ := hv.opens_created opens
      exact ⟨_, form, h.writes_subset c' hcreated⟩

end Extended

/-- What a client comes to list, to open and to show is seen, listed or shown by it before. -/
theorem Valid.on_known (h : Valid w) {act : LocalAct} (hs : step w (.on c act) = some w')
    (hknown : (w'.clients c').Lists community ∨ (w'.clients c').Opens community) :
    ∃ form, Backed w c' (creation community form) := by
  obtain ⟨-, client, hclient, rfl⟩ := step_on hs
  rw [setClient_clients] at hknown
  split_ifs at hknown with hc
  · subst hc
    have hspec := Client.step_spec hclient
    rcases hknown with hl | ho
    · rcases hspec.lists community hl with hl | ⟨value, hget, hdecode⟩
      · exact h.known c' community (Or.inl hl)
      · exact h.seen_community hget hdecode
    · exact h.known c' community (hspec.opens community ho).symm
  · exact h.known c' community hknown

theorem Valid.on_shown (h : Valid w) {act : LocalAct} (hs : step w (.on c act) = some w')
    (hshows : (w'.clients c').Shows community message) :
    ∃ key chat, Backed w c' (posting community key message chat) := by
  obtain ⟨-, client, hclient, rfl⟩ := step_on hs
  rw [setClient_clients] at hshows
  split_ifs at hshows with hc
  · subst hc
    rcases (Client.step_spec hclient).shows community message hshows with
      hold | ⟨-, key, value, hget, hdecode⟩
    · exact h.shown c' community message hold
    · exact ⟨key, h.seen_message hget hdecode⟩
  · exact h.shown c' community message hshows

theorem Valid.on (h : Valid w) {act : LocalAct} (hs : step w (.on c act) = some w') :
    Valid w' := by
  obtain ⟨new, hext⟩ := step_extended hs
  have hroot : w'.root = w.root := by
    obtain ⟨-, client, -, rfl⟩ := step_on hs
    rfl
  constructor
  case ordered => exact hext.ordered_writes h
  case apart => exact fun c₁ c₂ hne a ha b hb => hext.apart h hne ha hb
  case issued => exact fun c' a ha => hext.issued_writes h ha
  case formed => exact fun c' a ha => hext.formed_writes h ha
  case stored =>
    rw [hroot, hext.answered]
    exact h.stored
  case known =>
    intro c' community hknown
    obtain ⟨form, hbacked⟩ := h.on_known hs hknown
    exact ⟨form, hext.backed hbacked⟩
  case shown =>
    intro c' community message hshows
    obtain ⟨key, chat, hbacked⟩ := h.on_shown hs hshows
    exact ⟨key, chat, hext.backed hbacked⟩
  case created => exact fun c' communityid key fields chat ha => hext.created h ha
  case decided =>
    rw [hext.answered]
    exact h.decided

/-! ### What the server answers -/

/-- The world after the oldest unanswered write of a client was answered. -/
structure Answered (w : World) (c : ℕ) (ok : Bool) (b : Write) (rest : List Write) (w' : World) :
    Prop where
  unanswered : (w.clients c).unanswered = b :: rest
  root : w'.root = if ok then set b.path b.value w.root else w.root
  issued : w'.issued = w.issued
  answered : w'.answered = w.answered ++ [(c, b, ok)]
  left : (w'.clients c).unanswered = rest
  within : (w'.clients c).Within (w.clients c)
  others : ∀ c', c' ≠ c → w'.clients c' = w.clients c'

theorem answer_eq_some (h : w.answer c ok = some w') : ∃ b rest, Answered w c ok b rest w' := by
  unfold World.answer at h
  split at h
  · cases h
  · rename_i b rest hun
    obtain rfl := Option.some.inj h
    obtain ⟨hwithin, hsame⟩ :=
      ({ w.clients c with unanswered := rest } : Client).completed_within (!ok) b
    refine ⟨b, rest, hun, rfl, rfl, rfl, ?_, ?_, fun c' hne => Function.update_of_ne hne _ _⟩
    · simpa using hsame
    · have hlists : ({ w.clients c with unanswered := rest } : Client).Within (w.clients c) :=
        .of_eq rfl rfl
      simp only [Function.update_self]
      exact hwithin.trans hlists

namespace Answered

variable {rest : List Write}

theorem unanswered_subset (h : Answered w c ok b rest w') (c' : ℕ) :
    (w'.clients c').unanswered ⊆ (w.clients c').unanswered := by
  by_cases hc : c' = c
  · subst hc
    rw [h.left, h.unanswered]
    exact List.subset_cons_self b rest
  · rw [h.others c' hc]
    exact List.Subset.refl _

theorem mem_writes (h : Answered w c ok b rest w') {c' : ℕ} :
    a ∈ w'.writes c' ↔ a ∈ w.writes c' ∨ a = b := by
  by_cases hc : c' = c
  · subst hc
    have hsame : w'.writes c' = w.writes c' := by
      simp [World.writes, h.answered, h.left, h.unanswered]
    have hb : b ∈ w.writes c' := by simp [World.writes, h.unanswered]
    rw [hsame]
    exact (or_iff_left_of_imp fun hab => hab ▸ hb).symm
  · simp only [World.writes, h.answered, h.others c' hc, List.map_append, List.map_cons,
      List.map_nil, List.mem_append, List.mem_singleton]
    exact or_right_comm

theorem backed (h : Answered w c ok b rest w') {c' : ℕ} (ha : Backed w c' a) :
    Backed w' c' a := by
  have hgrow : w.answered ⊆ w'.answered := h.answered ▸ List.subset_append_left _ _
  rcases ha with ⟨c₀, ha⟩ | ha | ha
  · exact Or.inl ⟨c₀, hgrow ha⟩
  · by_cases hc : c' = c
    · subst hc
      rw [h.unanswered] at ha
      rcases List.mem_cons.mp ha with rfl | ha
      · have hmem : (c', a, ok) ∈ w'.answered := by simp [h.answered]
        cases ok with
        | true => exact Or.inl ⟨c', hmem⟩
        | false => exact Or.inr (Or.inr hmem)
      · exact Or.inr (Or.inl (h.left ▸ ha))
    · exact Or.inr (Or.inl (h.others c' hc ▸ ha))
  · exact Or.inr (Or.inr (hgrow ha))

/-- What a client lists, opens and shows does not depend on the answer. -/
theorem within_all (h : Answered w c ok b rest w') (c' : ℕ) :
    (w'.clients c').Within (w.clients c') := by
  by_cases hc : c' = c
  · exact hc ▸ h.within
  · rw [h.others c' hc]
    exact .refl _

end Answered

/-- An accepted write finds nothing in its place, nor below it. -/
theorem Valid.fresh (h : Valid w) {rest : List Write}
    (hun : (w.clients c).unanswered = b :: rest) : Fresh b.path w.root := by
  refine fresh_of_clear fun q x hleaf => ?_
  obtain ⟨c', a, ha, hputs⟩ := (h.stored q x).mp hleaf
  have hmem : a ∈ w.writes c := mem_writes.mpr (Or.inl ⟨c', true, ha⟩)
  refine ⟨a, h.formed c a hmem, ?_, hputs⟩
  exact (List.pairwise_append.mp (h.ordered c)).2.2 a (List.mem_map.mpr ⟨_, ha, rfl⟩) b
    (by simp [hun])

namespace Answered

variable {rest : List Write}

/-- The answered write comes before all that its client has still to be answered. -/
theorem ordered_next (h : Answered w c ok b rest w') (hv : Valid w) :
    (w.answered.map (fun entry => entry.2.1) ++ [b]).Pairwise Write.Clear ∧
      ∀ a ∈ rest, b.Clear a := by
  have hordered := hv.ordered c
  rw [World.writes, h.unanswered, List.append_cons] at hordered
  obtain ⟨hdone, -, hlater⟩ := List.pairwise_append.mp hordered
  exact ⟨hdone, fun a ha => hlater b (by simp) a ha⟩

theorem ordered_writes (h : Answered w c ok b rest w') (hv : Valid w) (c' : ℕ) :
    (w'.writes c').Pairwise Write.Clear := by
  have hdone : (w'.answered.map fun entry => entry.2.1) =
      w.answered.map (fun entry => entry.2.1) ++ [b] := by simp [h.answered]
  obtain ⟨hpair, hlater⟩ := h.ordered_next hv
  rw [World.writes, hdone]
  refine List.pairwise_append.mpr ⟨hpair, ?_, fun a ha b' hb' => ?_⟩
  · by_cases hc : c' = c
    · subst hc
      have hordered := hv.ordered c'
      rw [World.writes, h.unanswered] at hordered
      rw [h.left]
      exact (List.pairwise_cons.mp (List.pairwise_append.mp hordered).2.1).2
    · rw [h.others c' hc]
      exact (List.pairwise_append.mp (hv.ordered c')).2.1
  · have hold := h.unanswered_subset c' hb'
    rcases List.mem_append.mp ha with ha | ha
    · exact (List.pairwise_append.mp (hv.ordered c')).2.2 a ha b' hold
    · obtain rfl := List.mem_singleton.mp ha
      by_cases hc : c' = c
      · subst hc
        exact hlater b' (h.left ▸ hb')
      · exact hv.apart c c' (Ne.symm hc) a (by simp [h.unanswered]) b' hold

/-- The leaves of the write come to the others when it is accepted. -/
theorem stored (h : Answered w c ok b rest w') (hv : Valid w) (q : List String) (x : Value) :
    Leaf w'.root q x ↔ ∃ c' a, (c', a, true) ∈ w'.answered ∧ a.Puts q x := by
  have hentries : (∃ c' a, (c', a, true) ∈ w'.answered ∧ a.Puts q x) ↔
      (∃ c' a, (c', a, true) ∈ w.answered ∧ a.Puts q x) ∨ ok = true ∧ b.Puts q x := by
    simp only [h.answered, List.mem_append, List.mem_singleton, Prod.mk.injEq]
    constructor
    · rintro ⟨c', a, ha | ⟨-, rfl, rfl⟩, hputs⟩
      · exact Or.inl ⟨c', a, ha, hputs⟩
      · exact Or.inr ⟨rfl, hputs⟩
    · rintro (⟨c', a, ha, hputs⟩ | ⟨rfl, hputs⟩)
      · exact ⟨c', a, Or.inl ha, hputs⟩
      · exact ⟨c, b, Or.inr ⟨rfl, rfl, rfl⟩, hputs⟩
  rw [hentries, ← hv.stored, h.root]
  cases ok with
  | true => simpa [or_comm, Write.Puts] using leaf_set_iff (hv.fresh h.unanswered)
  | false => simp

/-- When a message is answered, the creation of its community was answered before. -/
theorem decided (h : Answered w c ok b rest w') (hv : Valid w) {c' : ℕ} {communityid : String}
    {fields : Fields} {chat : ℕ} {ok' : Bool}
    (ha : (c', .message communityid key fields chat, ok') ∈ w'.answered) :
    ∃ c₀ fields' form ok₀, (c₀, .community communityid fields' form, ok₀) ∈ w.answered := by
  rw [h.answered] at ha
  rcases List.mem_append.mp ha with ha | ha
  · exact hv.decided c' communityid key fields chat ok' ha
  · obtain ⟨rfl, rfl, rfl⟩ : c' = c ∧ .message communityid key fields chat = b ∧ ok' = ok := by
      simpa using ha
    obtain ⟨fields', form, hcreated⟩ := hv.created c' communityid key fields chat
      (by simp [h.unanswered])
    rcases SharedDatabase.mem_writes.mp hcreated with ⟨c₀, ok₀, hdone⟩ | hopen
    · exact ⟨c₀, fields', form, ok₀, hdone⟩
    · have hlater : .community communityid fields' form ∈ rest := by
        simpa [h.unanswered] using hopen
      exact absurd ⟨["Messages", key], rfl⟩ ((h.ordered_next hv).2 _ hlater)

end Answered

theorem Valid.answer (h : Valid w) (hs : w.answer c ok = some w') : Valid w' := by
  obtain ⟨b, rest, hans⟩ := answer_eq_some hs
  have hb : b ∈ w.writes c := mem_writes.mpr (Or.inr (by simp [hans.unanswered]))
  constructor
  case ordered => exact hans.ordered_writes h
  case apart =>
    intro c₁ c₂ hne a ha b' hb'
    exact h.apart c₁ c₂ hne a (hans.unanswered_subset c₁ ha) b' (hans.unanswered_subset c₂ hb')
  case issued =>
    intro c' a ha
    rw [hans.issued]
    rcases hans.mem_writes.mp ha with ha | rfl
    · exact h.issued c' a ha
    · exact h.issued c a hb
  case formed =>
    intro c' a ha
    rcases hans.mem_writes.mp ha with ha | rfl
    · exact h.formed c' a ha
    · exact h.formed c a hb
  case stored => exact hans.stored h
  case known =>
    intro c' community hknown
    have hold := hknown.imp (hans.within_all c').lists (hans.within_all c').opens
    exact (h.known c' community hold).imp fun form hform => hans.backed hform
  case shown =>
    intro c' community message hshows
    obtain ⟨key, chat, hpost⟩ := h.shown c' community message ((hans.within_all c').shows hshows)
    exact ⟨key, chat, hans.backed hpost⟩
  case created =>
    intro c' communityid key fields chat ha
    obtain ⟨fields', form, hcreated⟩ :=
      h.created c' communityid key fields chat (hans.unanswered_subset c' ha)
    exact ⟨fields', form, hans.mem_writes.mpr (Or.inl hcreated)⟩
  case decided =>
    intro c' communityid key fields chat ok' ha
    obtain ⟨c₀, fields', form, ok₀, hmem⟩ := hans.decided h ha
    exact ⟨c₀, fields', form, ok₀, hans.answered ▸ List.mem_append_left _ hmem⟩

/-! ### Runs -/

variable {currentUser : ℕ → Option String} {as : List Act} {act : Act}

theorem initial_valid (currentUser : ℕ → Option String) : Valid (initial currentUser) := by
  have hleaf : ∀ q x, ¬ Leaf (initial currentUser).root q x := fun _ _ => not_leaf_empty
  constructor
  case ordered => exact fun c => List.Pairwise.nil
  case stored => exact fun q x => ⟨fun h => absurd h (hleaf q x), by simp [initial]⟩
  case known => simp [initial, Client.Lists, Client.Opens]
  case shown => simp [initial, Client.Shows]
  all_goals simp [initial, World.writes]

theorem step_valid (h : Valid w) (hs : step w act = some w') : Valid w' := by
  cases act with
  | on c act => exact h.on hs
  | accepted c => exact h.answer hs
  | rejected c => exact h.answer hs

theorem run_valid (h : Run step (initial currentUser) as w) : Valid w :=
  h.invariant (initial_valid currentUser) step_valid

theorem Valid.kept (h : Valid w) (hs : step w act = some w') (hleaf : Leaf w.root q x) :
    Leaf w'.root q x := by
  have hanswer : ∀ {c : ℕ} {ok : Bool}, w.answer c ok = some w' → Leaf w'.root q x := by
    intro c ok ha
    obtain ⟨b, rest, hans⟩ := answer_eq_some ha
    rw [hans.root]
    split_ifs
    · exact leaf_set_kept (h.fresh hans.unanswered) hleaf
    · exact hleaf
  cases act with
  | on c act =>
    obtain ⟨-, client, -, rfl⟩ := step_on hs
    exact hleaf
  | accepted c => exact hanswer hs
  | rejected c => exact hanswer hs

end LoopChat.SharedDatabase
