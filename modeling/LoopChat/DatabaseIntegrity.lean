import LoopChat.DatabaseInvariant

/-!
# What stands in the tree and what is shown of it

Nothing that was stored is ever lost, the tree is what was accepted, and the lists and the chats
show what is accepted, or of the client's own.
-/
namespace LoopChat.SharedDatabase
open FirebaseValues PathStores TransitionRuns

variable {w : World} {currentUser : ℕ → Option String} {as : List Act}

/-- A creation and a message to the new community, written before either is answered. -/
def written : List Act :=
  [.on 0 .viewDidAppear, .on 0 .pushCreateCommunity, .on 0 (.editName 0 "Swift"),
    .on 0 (.createCommunityButton 0 "c"), .on 0 (.communityAdded 0 "c"),
    .on 0 (.didSelectItemAt 0), .on 0 (.chatDidAppear 0), .on 0 (.editMessage 0 "hi"),
    .on 0 (.sendMessageAction 0 "k"), .on 0 (.messageAdded 0 0 "k")]

/-- The tree holds what was accepted, all of it and nothing else, and whatever stands in it once
stays there, unchanged: applied once, no creation takes the place of a message or of another
creation. -/
theorem nothing_lost (h : Run step (initial currentUser) as w) :
    (∀ q x, Leaf w.root q x ↔ ∃ c write, (c, write, true) ∈ w.answered ∧ write.Puts q x) ∧
    ∀ bs w', Run step w bs w' → ∀ q x, Leaf w.root q x → Leaf w'.root q x := by
  refine ⟨(run_valid h).stored, fun bs w' hrun q x hleaf => ?_⟩
  have hboth : Valid w' ∧ Leaf w'.root q x :=
    hrun.invariant (I := fun w => Valid w ∧ Leaf w.root q x) ⟨run_valid h, hleaf⟩
      fun hI hs => ⟨step_valid hI.1 hs, hI.1.kept hs hI.2⟩
  exact hboth.2

theorem nothing_lost_written : ∃ s w,
    Run step (initial fun _ => some "u") (written ++ [.accepted 0]) s ∧ Run step s [.accepted 0] w ∧
      Leaf w.root ["communities", "c", "CommunityName"] (.string "Swift") := by
  have hname : (exec step (initial fun _ => some "u") (written ++ [.accepted 0])).map
      (fun w => (PathStores.get ["communities", "c", "CommunityName"] w.root,
        (step w (.accepted 0)).isSome)) = some (some (.string "Swift"), true) := rfl
  obtain ⟨s, hs, hlast⟩ := run_of_exec_map hname
  obtain ⟨hget, hnext⟩ := Prod.mk.inj hlast
  obtain ⟨w, hw⟩ := Option.isSome_iff_exists.mp hnext
  exact ⟨s, w, hs, Run.nil.snoc hw,
    (nothing_lost hs).2 [.accepted 0] w (Run.nil.snoc hw) _ _ ⟨hget, rfl⟩⟩

/-- Each community on a list or open in a chat has a name and each message in a chat has a text,
and both stand in the tree, unless the client made them itself and they are unanswered or were
rejected. -/
theorem shown_stands (h : Run step (initial currentUser) as w) (c : ℕ) :
    (∀ community, (w.clients c).Lists community ∨ (w.clients c).Opens community →
      community.communityName ≠ "" ∧
        (Leaf w.root ["communities", community.communityID, "CommunityName"]
            (.string community.communityName) ∨
          ∃ form, creation community form ∈ (w.clients c).unanswered ∨
            (c, creation community form, false) ∈ w.answered)) ∧
    ∀ community message, (w.clients c).Shows community message →
      message.messageBody ≠ "" ∧ ∃ key, (∀ f s, (dataArray message.senderName message.senderID
            message.messageBody).lookup f = some (.string s) →
          Leaf w.root ["communities", community.communityID, "Messages", key, f] (.string s)) ∨
        ∃ chat, posting community key message chat ∈ (w.clients c).unanswered ∨
          (c, posting community key message chat, false) ∈ w.answered := by
  have hvalid := run_valid h
  constructor
  · intro community hknown
    obtain ⟨form, hbacked⟩ := hvalid.known c community hknown
    obtain ⟨name, hname, heq⟩ := hvalid.formed c _ hbacked.mem_writes
    obtain rfl : community.communityName = name := by simpa using heq
    refine ⟨hname, ?_⟩
    rcases hbacked with ⟨c', hdone⟩ | hown
    · exact Or.inl ((hvalid.stored _ _).mpr ⟨c', _, hdone, community_puts.mpr ⟨rfl, rfl⟩⟩)
    · exact Or.inr ⟨form, hown⟩
  · intro community message hshows
    obtain ⟨key, chat, hbacked⟩ := hvalid.shown c community message hshows
    obtain ⟨name, userid, text, htext, heq⟩ := hvalid.formed c _ hbacked.mem_writes
    obtain ⟨-, -, rfl⟩ := dataArray_inj.mp heq
    refine ⟨htext, key, ?_⟩
    rcases hbacked with ⟨c', hdone⟩ | hown
    · exact Or.inl fun f s hlookup => (hvalid.stored _ _).mpr
        ⟨c', _, hdone, message_puts.mpr ⟨f, s, rfl, rfl, hlookup⟩⟩
    · exact Or.inr ⟨chat, hown⟩

theorem shown_stands_written : ∃ w, Run step (initial fun _ => some "u") written w ∧
    ∃ form, creation ⟨"Swift", "c"⟩ form ∈ (w.clients 0).unanswered ∨
      (0, creation ⟨"Swift", "c"⟩ form, false) ∈ w.answered := by
  have hexec : (exec step (initial fun _ => some "u") written).map
      (fun w => (w.root, (w.clients 0).list.arrayOfCommunities)) =
      some (.dict [], [⟨"Swift", "c"⟩]) := rfl
  obtain ⟨w, hw, hlast⟩ := run_of_exec_map hexec
  obtain ⟨hroot, hlist⟩ := Prod.mk.inj hlast
  have hlists : (w.clients 0).Lists ⟨"Swift", "c"⟩ := by simp [Client.Lists, hlist]
  have hstands := ((shown_stands hw 0).1 ⟨"Swift", "c"⟩ (Or.inl hlists)).2
  refine ⟨w, hw, hstands.resolve_left fun hleaf => ?_⟩
  rw [hroot] at hleaf
  exact not_leaf_empty (κ := String) (ν := Value) hleaf

/-- A community under which something stands has no name exactly when its creation was
rejected. -/
theorem nameless_iff_rejected (h : Run step (initial currentUser) as w) {communityid : String}
    (hstands : ∃ q x, Leaf w.root q x ∧ ["communities", communityid] <+: q) :
    (∀ x, ¬ Leaf w.root ["communities", communityid, "CommunityName"] x) ↔
      ∃ c fields form, (c, .community communityid fields form, false) ∈ w.answered := by
  have hvalid := run_valid h
  have hname : ∀ {c : ℕ} {fields : Fields} {form : ℕ},
      (c, .community communityid fields form, true) ∈ w.answered →
        ∃ x, Leaf w.root ["communities", communityid, "CommunityName"] x := by
    intro c fields form hdone
    obtain ⟨name, -, rfl⟩ := hvalid.formed c _ (mem_writes.mpr (Or.inl ⟨c, true, hdone⟩))
    exact ⟨.string name, (hvalid.stored _ _).mpr ⟨c, _, hdone, community_puts.mpr ⟨rfl, rfl⟩⟩⟩
  constructor
  · intro hnone
    obtain ⟨q, x, hleaf, hprefix⟩ := hstands
    obtain ⟨c, write, hdone, r, rfl, -⟩ := (hvalid.stored q x).mp hleaf
    cases write with
    | community key fields form =>
      obtain rfl : communityid = key := by
        simpa [Write.path, List.cons_prefix_cons] using hprefix
      obtain ⟨x, hx⟩ := hname hdone
      exact absurd hx (hnone x)
    | message communityid' key fields chat =>
      obtain rfl : communityid = communityid' := by
        simpa [Write.path, List.cons_prefix_cons] using hprefix
      obtain ⟨c', fields', form, ok, hcreated⟩ :=
        hvalid.decided c communityid key fields chat _ hdone
      cases ok with
      | true =>
        obtain ⟨x, hx⟩ := hname hcreated
        exact absurd hx (hnone x)
      | false => exact ⟨c', fields', form, hcreated⟩
  · rintro ⟨c, fields, form, hrejected⟩ x hleaf
    obtain ⟨c', write, hdone, hputs⟩ := (hvalid.stored _ x).mp hleaf
    have hnodup : (w.answered.map fun entry => entry.2.1.path).Nodup := by
      have hpair := (List.pairwise_append.mp (hvalid.ordered c)).1
      rw [List.pairwise_map] at hpair
      exact List.pairwise_map.mpr (hpair.imp fun hclear => hclear.path_ne)
    have hformed := hvalid.formed c' write (mem_writes.mpr (Or.inl ⟨c', true, hdone⟩))
    obtain ⟨name, form', -, rfl⟩ := hformed.creation_of_puts hputs
    have hsame := List.inj_on_of_nodup_map hnodup hdone hrejected rfl
    simp at hsame

theorem nameless_written : ∃ w,
    Run step (initial fun _ => some "u") (written ++ [.rejected 0, .accepted 0]) w ∧
      ∀ x, ¬ Leaf w.root ["communities", "c", "CommunityName"] x := by
  have hend : (exec step (initial fun _ => some "u") (written ++ [.rejected 0, .accepted 0])).map
      (fun w => (PathStores.get ["communities", "c", "Messages", "k", "messageBody"] w.root,
        w.answered.head?)) =
      some (some (.string "hi"),
        some (0, .community "c" [("CommunityName", .string "Swift")] 0, false)) := rfl
  obtain ⟨w, hw, hlast⟩ := run_of_exec_map hend
  obtain ⟨hget, hhead⟩ := Prod.mk.inj hlast
  have hstands : ∃ q x, Leaf w.root q x ∧ ["communities", "c"] <+: q :=
    ⟨_, _, ⟨hget, rfl⟩, ⟨["Messages", "k", "messageBody"], rfl⟩⟩
  exact ⟨w, hw, (nameless_iff_rejected hw hstands).mpr
    ⟨0, _, 0, List.mem_of_head? hhead⟩⟩

end LoopChat.SharedDatabase
