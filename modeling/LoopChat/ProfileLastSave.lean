import LoopChat.ProfileSaves

/-!
# The last save wins, field by field

A save writes both fields as the screen shows them. What a field shows comes from the last
edit or the last answered load of its screen, whichever is later; the source keeps no record
of which fields were edited.
-/
namespace LoopChat.ProfileSaves
open FirebaseValues TransitionRuns

/-! ### What a field shows -/

inductive Source
  | edit (text : String)
  | load (i : ℕ)

/-- The labels that set the field of a screen. -/
def source (s : ℕ) (field : Field) : Act → Option Source
  | .edit s' field' text => if s' = s ∧ field' = field then some (.edit text) else none
  | .answered s' i => if s' = s then some (.load i) else none
  | _ => none

/-- The document as the client of a screen sees it. -/
def World.seenFrom (w : World) (s : ℕ) : Snapshot :=
  match w.screens[s]? with
  | some screen => w.seenBy screen.client
  | none => some w.document

/-- The field of screen `s` shows `text` by the labels taken so far: what was typed last, or
what the last answered load found in the document, or nothing yet. -/
def Shows (w₀ : World) (as : List Act) (s : ℕ) (field : Field) (text : String) : Prop :=
  match lastOf (source s field) as with
  | none => text = ""
  | some (.edit typed) => text = typed
  | some (.load i) => Taken step w₀ as (.served s i) fun u =>
      text = ((u.seenFrom s).string field.name).getD ""

/-- What the document of the field comes from: the last save of all, with the text its screen
showed, or the initial value when nothing was saved. -/
def LastSaved (w₀ : World) (as : List Act) (field : Field) (value : Option String) : Prop :=
  ((∀ s, .updateUserInfo s ∉ as) ∧ value = w₀.document.string field.name) ∨
    ∃ pre s post text, as = pre ++ .updateUserInfo s :: post ∧
      (∀ s', .updateUserInfo s' ∉ post) ∧ Shows w₀ pre s field text ∧ value = some text

variable {w₀ w w' : World} {as : List Act} {a : Act} {s : ℕ} {field : Field} {text : String}

theorem Shows.append (h : Shows w₀ as s field text) (ha : source s field a = none) :
    Shows w₀ (as ++ [a]) s field text := by
  unfold Shows at h ⊢
  rw [lastOf_append, lastOf_singleton, ha, Option.none_or]
  split at h
  · exact h
  · exact h
  · exact Taken.append h [a]

theorem shows_edit : Shows w₀ (as ++ [.edit s field text]) s field text := by
  unfold Shows
  rw [lastOf_append, lastOf_singleton]
  simp [source]

theorem shows_answered {i : ℕ} (h : Taken step w₀ as (.served s i) fun u =>
    text = ((u.seenFrom s).string field.name).getD "") :
    Shows w₀ (as ++ [.answered s i]) s field text := by
  unfold Shows
  rw [lastOf_append, lastOf_singleton]
  simpa [source] using h.append [.answered s i]

theorem shows_nil : Shows w₀ [] s field "" := rfl

@[simp] theorem Field.text_edit (vc : UserProfileVC) (field : Field) (text : String) :
    field.text (field.edit vc text) = text := by
  cases field <;> rfl

theorem Field.text_edit_of_ne {field field' : Field} (h : field' ≠ field) (vc : UserProfileVC)
    (text : String) : field.text (field'.edit vc text) = field.text vc := by
  cases field <;> cases field' <;> first | rfl | exact absurd rfl h

/-- A decoded document is shown with its own fields. -/
theorem Field.text_showUser {uid : String} {snapshot : Snapshot} {user : User} (field : Field)
    (vc : UserProfileVC) (h : decodeUser uid (some snapshot) = .ok user) :
    field.text (vc.showUser user) = (snapshot.string field.name).getD "" := by
  obtain ⟨document, userName, hd, hname, rfl⟩ := decodeUser_eq_ok.mp h
  obtain rfl : snapshot = some document := Option.some.inj hd
  cases field with
  | userName => simp [Field.text, Field.name, Snapshot.string, UserProfileVC.showUser, hname]
  | email => rfl

theorem Field.string_updateFields (document : Fields) (vc : UserProfileVC) (field : Field) :
    (document.merge (UserProfileVC.updateFields vc.profileUserName vc.profileEmail)).string
      field.name = some (field.text vc) := by
  cases field <;> rfl

theorem applyAll_append (document : Fields) (writes : List (ℕ × Fields)) (write : ℕ × Fields) :
    applyAll document (writes ++ [write]) = (applyAll document writes).merge write.2 := by
  simp [applyAll]

/-! ### The invariant of a run -/

structure Traced (w₀ : World) (as : List Act) (w : World) : Prop where
  shown : ∀ (s : ℕ) (screen : Screen) (field : Field), w.screens[s]? = some screen →
    Shows w₀ as s field (field.text screen.vc)
  opened : ∀ (s : ℕ) (field : Field), w.screens[s]? = none → Shows w₀ as s field ""
  loaded : ∀ (i : ℕ) (load : Load) (snapshot : Snapshot), w.loads[i]? = some load →
    load.answer = some snapshot →
      Taken step w₀ as (.served load.screen i) fun u => snapshot = u.seenFrom load.screen
  saved : ∀ field : Field, LastSaved w₀ as field (w.latest.string field.name)

theorem LastSaved.append {value : Option String} (h : LastSaved w₀ as field value)
    (ha : ∀ s, a ≠ .updateUserInfo s) : LastSaved w₀ (as ++ [a]) field value := by
  rcases h with ⟨hno, hv⟩ | ⟨pre, s, post, text, rfl, hno, hshows, hv⟩
  · refine Or.inl ⟨fun s hmem => ?_, hv⟩
    rcases List.mem_append.mp hmem with hmem | hmem
    · exact hno s hmem
    · exact ha s (List.mem_singleton.mp hmem).symm
  · refine Or.inr ⟨pre, s, post ++ [a], text, by simp, fun s' hmem => ?_, hshows, hv⟩
    rcases List.mem_append.mp hmem with hmem | hmem
    · exact hno s' hmem
    · exact ha s' (List.mem_singleton.mp hmem).symm

/-- Labels that touch no screen, no answer and no save keep the trace. -/
theorem Traced.append (h : Traced w₀ as w) (hsource : ∀ s field, source s field a = none)
    (hsave : ∀ s, a ≠ .updateUserInfo s) (hlatest : w'.latest = w.latest)
    (hscreens : w'.screens = w.screens) (hloads : ∀ (i : ℕ) (load : Load) (snapshot : Snapshot),
      w'.loads[i]? = some load → load.answer = some snapshot → w.loads[i]? = some load) :
    Traced w₀ (as ++ [a]) w' where
  shown := by
    intro s screen field hs
    exact (h.shown s screen field (hscreens ▸ hs)).append (hsource s field)
  opened := by
    intro s field hs
    exact (h.opened s field (hscreens ▸ hs)).append (hsource s field)
  loaded := by
    intro i load snapshot hi hd
    exact (h.loaded i load snapshot (hloads i load snapshot hi hd) hd).append [a]
  saved := by
    intro field
    rw [hlatest]
    exact (h.saved field).append hsave

/-- A label that sets fields of screen `s` alone keeps what the other screens show. -/
theorem Traced.setScreen (h : Traced w₀ as w) {screen screen' : Screen}
    (at_s : w.screens[s]? = some screen) (hscreens : w'.screens = w.screens.set s screen')
    (hother : ∀ s' field, s' ≠ s → source s' field a = none) (hsave : ∀ s, a ≠ .updateUserInfo s)
    (hlatest : w'.latest = w.latest)
    (hshown : ∀ field : Field, Shows w₀ (as ++ [a]) s field (field.text screen'.vc))
    (hloaded : ∀ (i : ℕ) (load : Load) (snapshot : Snapshot), w'.loads[i]? = some load →
      load.answer = some snapshot →
        Taken step w₀ as (.served load.screen i) fun u => snapshot = u.seenFrom load.screen) :
    Traced w₀ (as ++ [a]) w' where
  shown := by
    intro s' x field hs'
    rw [hscreens] at hs'
    rcases getElem?_set_cases at_s hs' with ⟨rfl, rfl⟩ | ⟨hne, hs'⟩
    · exact hshown field
    · exact (h.shown s' x field hs').append (hother s' field hne)
  opened := by
    intro s' field hs'
    rw [hscreens] at hs'
    have hlt : s < w.screens.length := (List.getElem?_eq_some_iff.mp at_s).1
    have hne : s' ≠ s := by
      rintro rfl
      simp [hlt] at hs'
    have hnone : w.screens[s']? = none := by simpa using hs'
    exact (h.opened s' field hnone).append (hother s' field hne)
  loaded := fun i load snapshot hi hd => (hloaded i load snapshot hi hd).append [a]
  saved := by
    intro field
    rw [hlatest]
    exact (h.saved field).append hsave

/-- A new screen shows two empty fields. -/
theorem Traced.opens (h : Traced w₀ as w) (client : ℕ) : Traced w₀ (as ++ [.opened client])
    { w with screens := w.screens ++ [⟨client, {}⟩] } where
  shown := by
    intro s screen field hs
    by_cases hlt : s < w.screens.length
    · rw [List.getElem?_append_left hlt] at hs
      exact (h.shown s screen field hs).append rfl
    · have hnone : w.screens[s]? = none := List.getElem?_eq_none (by omega)
      rw [List.getElem?_append_right (by omega)] at hs
      obtain rfl : (⟨client, {}⟩ : Screen) = screen :=
        (List.mem_singleton.mp (List.mem_of_getElem? hs)).symm
      have hempty := (h.opened s field hnone).append (a := .opened client) rfl
      cases field <;> exact hempty
  opened := by
    intro s field hs
    refine (h.opened s field ?_).append rfl
    rw [List.getElem?_eq_none_iff] at hs ⊢
    rw [List.length_append] at hs
    omega
  loaded := fun i load snapshot hi hd => (h.loaded i load snapshot hi hd).append _
  saved := fun field => (h.saved field).append (by simp)

/-- A save writes what its screen shows. -/
theorem Traced.saves (h : Traced w₀ as w) {screen : Screen} (at_s : w.screens[s]? = some screen) :
    Traced w₀ (as ++ [.updateUserInfo s]) { w with
      writes := w.writes ++ [(screen.client,
        UserProfileVC.updateFields screen.vc.profileUserName screen.vc.profileEmail)] } where
  shown := fun s' screen' field hs' => (h.shown s' screen' field hs').append rfl
  opened := fun s' field hs' => (h.opened s' field hs').append rfl
  loaded := fun i load snapshot hi hd => (h.loaded i load snapshot hi hd).append _
  saved := by
    intro field
    refine Or.inr ⟨as, s, [], _, rfl, by simp, h.shown s screen field at_s, ?_⟩
    simp only [World.latest, applyAll_append]
    exact Field.string_updateFields _ screen.vc field

/-- The answer to a load is the document as the client of its screen sees it then. -/
theorem Traced.serves (h : Traced w₀ as w) (hr : Run step w₀ as w) {i : ℕ} {screen : Screen}
    {load : Load} (at_s : w.screens[load.screen]? = some screen)
    (at_i : w.loads[i]? = some load) : Traced w₀ (as ++ [.served load.screen i])
      (w.setLoad i { load with answer := some (w.seenBy screen.client) }) where
  shown := fun s' screen' field hs' => (h.shown s' screen' field hs').append rfl
  opened := fun s' field hs' => (h.opened s' field hs').append rfl
  loaded := by
    intro j load' snapshot hj hd
    rcases getElem?_set_cases at_i hj with ⟨rfl, rfl⟩ | ⟨-, hj⟩
    · refine Taken.last hr ?_
      obtain rfl := Option.some.inj hd
      simp [World.seenFrom, at_s]
    · exact (h.loaded j load' snapshot hj hd).append _
  saved := fun field => (h.saved field).append (by simp)

theorem traced_step (hr : Run step w₀ as w) (h : Traced w₀ as w) (hs : step w a = some w') :
    Traced w₀ (as ++ [a]) w' := by
  cases step_effect hs with
  | opened client => exact h.opens client
  | @appeared s screen at_s =>
    refine h.append (fun _ _ => rfl) (by simp) rfl rfl fun i load snapshot hi hd => ?_
    by_cases hlt : i < w.loads.length
    · rwa [List.getElem?_append_left hlt] at hi
    · rw [List.getElem?_append_right (by omega)] at hi
      obtain rfl : (⟨s, none, false⟩ : Load) = load :=
        (List.mem_singleton.mp (List.mem_of_getElem? hi)).symm
      simp at hd
  | @edited s screen field text at_s =>
    refine h.setScreen at_s rfl ?_ (by simp) rfl ?_ h.loaded
    · exact fun s' field' hne => by simp [source, Ne.symm hne]
    · intro field'
      by_cases hf : field' = field
      · subst hf
        rw [Field.text_edit]
        exact shows_edit
      · rw [Field.text_edit_of_ne (Ne.symm hf)]
        exact (h.shown s screen field' at_s).append (by simp [source, Ne.symm hf])
  | saved at_s => exact h.saves at_s
  | applied first =>
    refine h.append (fun _ _ => rfl) (by simp) ?_ rfl fun i load snapshot hi _ => hi
    simp [World.latest, applyAll, first]
  | served at_s at_i owner waiting =>
    subst owner
    exact h.serves hr at_s at_i
  | @answered s i screen load snapshot user at_s at_i owner unhandled loaded decode =>
    subst owner
    have hserved := h.loaded i load snapshot at_i loaded
    refine h.setScreen at_s rfl ?_ (by simp) rfl ?_ ?_
    · exact fun s' field hne => by simp [source, Ne.symm hne]
    · intro field
      refine shows_answered (hserved.mono fun u hu => ?_)
      rw [← hu]
      exact field.text_showUser screen.vc decode
    · intro j load' snapshot' hj hd
      rcases getElem?_set_cases at_i hj with ⟨rfl, rfl⟩ | ⟨-, hj⟩
      · exact h.loaded j load snapshot' at_i hd
      · exact h.loaded j load' snapshot' hj hd

theorem traced_initial (uid : String) (document : Fields) :
    Traced (initial uid document) [] (initial uid document) where
  shown := by simp [initial]
  opened := fun _ _ _ => shows_nil
  loaded := by simp [initial]
  saved := fun field => Or.inl ⟨by simp, rfl⟩

theorem traced_run {uid : String} {document : Fields} (h : Run step (initial uid document) as w) :
    Traced (initial uid document) as w := by
  induction h with
  | nil => exact traced_initial uid document
  | snoc prior next ih => exact traced_step prior ih next

/-- Once every save is applied, each field holds what its screen showed at the last save. -/
theorem document_last_saved {uid : String} {document : Fields}
    (h : Run step (initial uid document) as w) (quiet : w.writes = []) (field : Field) :
    LastSaved (initial uid document) as field (w.document.string field.name) := by
  have hlatest : w.latest = w.document := by simp [World.latest, applyAll, quiet]
  exact hlatest ▸ (traced_run h).saved field

end LoopChat.ProfileSaves
