import LoopChat.TransitionRuns

/-!
# A text field and a button that writes it

The button writes what the field holds. The field stays editable until the answer comes, and
a success empties it. A draft is what the field holds from one edit until the next edit or
clearing; drafts are numbered, and each write remembers the number of its own.
-/
namespace LoopChat.DraftWrites
open TransitionRuns

/-- The functions of a form, with what the field and the button have to do with each other. -/
structure Composer (φ β : Type*) where
  text : φ → String
  edit : φ → String → φ
  tap : φ → List β
  done : φ → Bool → φ
  text_edit : ∀ form t, text (edit form t) = t
  tap_empty : ∀ form, text form = "" → tap form = []
  tap_text : ∀ form, text form ≠ "" → ∃ call, tap form = [call]
  text_failed : ∀ form, text (done form true) = text form
  text_done : ∀ form, text (done form false) = ""

inductive Status
  | waiting
  | acknowledged
  | failed
  deriving DecidableEq, Repr

structure Write (β : Type*) where
  draft : ℕ
  call : β
  status : Status

structure World (φ β : Type*) where
  form : φ
  draft : ℕ
  writes : List (Write β)

inductive Act (φ : Type*)
  | edit (text : String)
  | tap
  | succeeded (write : ℕ)
  | failed (write : ℕ)
  /-- Something else happens to the form; the text stays. -/
  | elsewhere (form : φ)

variable {φ β : Type*} (composer : Composer φ β)

def initial (form : φ) : World φ β := ⟨form, 0, []⟩

/-- The `i`-th write, while its answer is still to come. -/
def World.waiting (w : World φ β) (i : ℕ) : Option (Write β) :=
  (w.writes[i]?).filter fun x => x.status = .waiting

def World.answer (w : World φ β) (i : ℕ) (x : Write β) (status : Status) : List (Write β) :=
  w.writes.set i { x with status := status }

def step (w : World φ β) : Act φ → Option (World φ β)
  | .edit t => some { w with form := composer.edit w.form t, draft := w.draft + 1 }
  | .tap => some { w with
      writes := w.writes ++ (composer.tap w.form).map fun call => ⟨w.draft, call, .waiting⟩ }
  | .succeeded i => (w.waiting i).map fun x =>
      ⟨composer.done w.form false, w.draft + 1, w.answer i x .acknowledged⟩
  | .failed i => (w.waiting i).map fun x =>
      ⟨composer.done w.form true, w.draft, w.answer i x .failed⟩
  | .elsewhere form =>
    if composer.text form = composer.text w.form then some { w with form := form } else none

/-- The write was made from draft `d` and has not been reported as failed. -/
def Write.counts (d : ℕ) (x : Write β) : Bool := x.draft = d ∧ x.status ≠ .failed

def AtMostOnce (w : World φ β) : Prop := ∀ d, w.writes.countP (Write.counts d) ≤ 1

def Act.answers : Act φ → Bool
  | .succeeded _ | .failed _ => true
  | _ => false

/-- The step leaves each draft written at most once, and a completion handler that empties the
field erases a draft whose write has been acknowledged. -/
def OnceOrKept (w : World φ β) (a : Act φ) : Prop :=
  ∀ w', step composer w a = some w' → AtMostOnce w' ∧
    (a.answers = true → composer.text w.form ≠ "" → composer.text w'.form = "" →
      ∃ x ∈ w'.writes, x.draft = w.draft ∧ x.status = .acknowledged)

/-- No tap on a draft with an unanswered write, and no success while the field holds another
draft than the one that was written. -/
def Careful (w : World φ β) : Act φ → Prop
  | .tap => composer.text w.form = "" ∨
      ∀ x ∈ w.writes, x.draft = w.draft → x.status ≠ .waiting
  | .succeeded i => composer.text w.form = "" ∨ ∀ x, w.waiting i = some x → x.draft = w.draft
  | _ => True

instance (w : World φ β) : DecidablePred (Careful composer w)
  | .tap => inferInstanceAs (Decidable (_ ∨ ∀ x ∈ w.writes, _))
  | .succeeded i => inferInstanceAs (Decidable (_ ∨ ∀ x ∈ w.waiting i, _))
  | .edit _ | .failed _ | .elsewhere _ => inferInstanceAs (Decidable True)

/-- An acknowledged write has ended its draft, and no draft was written twice. -/
structure Sound (w : World φ β) : Prop where
  older : ∀ x ∈ w.writes, x.draft ≤ w.draft
  ended : ∀ x ∈ w.writes, x.status = .acknowledged → x.draft < w.draft
  once : AtMostOnce w

variable {composer} {w w' : World φ β} {a : Act φ} {x y : Write β} {i d : ℕ}

theorem counts_eq_true : x.counts d = true ↔ x.draft = d ∧ x.status ≠ .failed := by
  simp [Write.counts]

theorem waiting_eq_some : w.waiting i = some x ↔ w.writes[i]? = some x ∧ x.status = .waiting := by
  simp [World.waiting, Option.filter_eq_some_iff]

theorem mem_answer {status : Status} (hy : y ∈ w.answer i x status) :
    y ∈ w.writes ∨ y = { x with status := status } := List.mem_or_eq_of_mem_set hy

theorem answer_mem {status : Status} (hx : w.waiting i = some x) :
    { x with status := status } ∈ w.answer i x status :=
  List.mem_set (List.getElem?_eq_some_iff.mp (waiting_eq_some.mp hx).1).1 _

/-- An answer makes no draft written more often. -/
theorem countP_answer_le {status : Status} (hx : w.waiting i = some x) (d : ℕ) :
    (w.answer i x status).countP (Write.counts d) ≤ w.writes.countP (Write.counts d) := by
  obtain ⟨hi, hw⟩ := waiting_eq_some.mp hx
  obtain ⟨hlt, rfl⟩ := List.getElem?_eq_some_iff.mp hi
  have hle := List.boole_getElem_le_countP (p := Write.counts d) hlt
  have hcounts : Write.counts d { w.writes[i] with status := status } = true →
      Write.counts d w.writes[i] = true := fun h =>
    counts_eq_true.mpr ⟨(counts_eq_true.mp h).1, by rw [hw]; decide⟩
  rw [World.answer, List.countP_set hlt]
  split_ifs at hle ⊢ <;> first | omega | exact absurd (hcounts ‹_›) ‹_›

theorem AtMostOnce.answer {status : Status} (h : AtMostOnce w) (hx : w.waiting i = some x)
    {form : φ} {n : ℕ} : AtMostOnce (⟨form, n, w.answer i x status⟩ : World φ β) := fun d =>
  (countP_answer_le hx d).trans (h d)

/-- A tap on a filled field writes the draft once more. -/
theorem tap_atMostOnce_iff (h : Sound w) (ht : composer.text w.form ≠ "")
    (hs : step composer w .tap = some w') :
    AtMostOnce w' ↔ ∀ x ∈ w.writes, x.draft = w.draft → x.status ≠ .waiting := by
  obtain ⟨call, hcall⟩ := composer.tap_text w.form ht
  obtain rfl := Option.some.inj hs
  have hcount : ∀ d, (w.writes ++ [(⟨w.draft, call, .waiting⟩ : Write β)]).countP (Write.counts d) =
      w.writes.countP (Write.counts d) + if w.draft = d then 1 else 0 := by
    intro d
    rw [List.countP_append, List.countP_singleton]
    simp [Write.counts]
  have hzero : w.writes.countP (Write.counts w.draft) = 0 ↔
      ∀ x ∈ w.writes, x.draft = w.draft → x.status ≠ .waiting := by
    rw [List.countP_eq_zero]
    refine forall₂_congr fun x hx => ?_
    rw [counts_eq_true, not_and, not_not]
    refine imp_congr_right fun hd => ⟨fun hf => by rw [hf]; decide, fun hw => ?_⟩
    have hack := mt (h.ended x hx) hd.not_lt
    cases hstatus : x.status with
    | waiting => exact absurd hstatus hw
    | acknowledged => exact absurd hstatus hack
    | failed => rfl
  simp only [AtMostOnce, hcall, List.map_cons, List.map_nil, hcount]
  rw [← hzero]
  constructor
  · intro hall
    have := hall w.draft
    simp only [if_true] at this
    omega
  · intro hz d
    have := h.once d
    split_ifs with hd
    · subst hd
      omega
    · exact this

/-- A step that writes no draft twice keeps the rest: writes are of old drafts, and an
acknowledgement ends the draft. -/
theorem Sound.step (h : Sound w) (hs : step composer w a = some w') (honce : AtMostOnce w') :
    Sound w' := by
  cases a with
  | edit t =>
    obtain rfl := Option.some.inj hs
    exact ⟨fun x hx => (h.older x hx).trans (Nat.le_succ _),
      fun x hx ha => (h.ended x hx ha).trans (Nat.lt_succ_self _), honce⟩
  | tap =>
    obtain rfl := Option.some.inj hs
    refine ⟨fun x hx => ?_, fun x hx ha => ?_, honce⟩
    · rcases List.mem_append.mp hx with hx | hx
      · exact h.older x hx
      · obtain ⟨call, -, rfl⟩ := List.mem_map.mp hx
        exact le_refl _
    · rcases List.mem_append.mp hx with hx | hx
      · exact h.ended x hx ha
      · obtain ⟨call, -, rfl⟩ := List.mem_map.mp hx
        cases ha
  | succeeded i =>
    obtain ⟨x, hx, rfl⟩ := Option.map_eq_some_iff.mp hs
    have hmem := List.mem_of_getElem? (waiting_eq_some.mp hx).1
    have holder : ∀ y ∈ w.answer i x .acknowledged, y.draft ≤ w.draft := fun y hy => by
      rcases mem_answer hy with hy | rfl
      · exact h.older y hy
      · exact h.older x hmem
    exact ⟨fun y hy => (holder y hy).trans (Nat.le_succ _),
      fun y hy _ => Nat.lt_succ_of_le (holder y hy), honce⟩
  | failed i =>
    obtain ⟨x, hx, rfl⟩ := Option.map_eq_some_iff.mp hs
    have hmem := List.mem_of_getElem? (waiting_eq_some.mp hx).1
    refine ⟨fun y hy => ?_, fun y hy ha => ?_, honce⟩
    · rcases mem_answer hy with hy | rfl
      · exact h.older y hy
      · exact h.older x hmem
    · rcases mem_answer hy with hy | rfl
      · exact h.ended y hy ha
      · cases ha
  | elsewhere form =>
    simp only [DraftWrites.step] at hs
    split_ifs at hs
    obtain rfl := Option.some.inj hs
    exact ⟨h.older, h.ended, honce⟩

/-- A step keeps each draft written at most once and erases none that is not acknowledged
exactly when it is careful. -/
theorem onceOrKept_iff (h : Sound w) (hs : step composer w a = some w') :
    OnceOrKept composer w a ↔ Careful composer w a := by
  have hunique : OnceOrKept composer w a ↔ AtMostOnce w' ∧
      (a.answers = true → composer.text w.form ≠ "" → composer.text w'.form = "" →
        ∃ x ∈ w'.writes, x.draft = w.draft ∧ x.status = .acknowledged) := by
    refine ⟨fun hgood => hgood w' hs, fun hgood v hv => ?_⟩
    obtain rfl := Option.some.inj (hs.symm.trans hv)
    exact hgood
  rw [hunique]
  cases a with
  | edit t =>
    obtain rfl := Option.some.inj hs
    exact iff_of_true ⟨h.once, fun ha => by cases ha⟩ trivial
  | elsewhere form =>
    simp only [step] at hs
    split_ifs at hs
    obtain rfl := Option.some.inj hs
    exact iff_of_true ⟨h.once, fun ha => by cases ha⟩ trivial
  | failed i =>
    obtain ⟨x, hx, rfl⟩ := Option.map_eq_some_iff.mp hs
    refine iff_of_true ⟨h.once.answer hx, fun _ ht he => absurd ?_ ht⟩ trivial
    rw [← composer.text_failed w.form]
    exact he
  | tap =>
    by_cases ht : composer.text w.form = ""
    · have hsame : w = w' := by simpa [step, composer.tap_empty w.form ht] using hs
      subst hsame
      exact iff_of_true ⟨h.once, fun ha => by cases ha⟩ (Or.inl ht)
    · rw [tap_atMostOnce_iff h ht hs]
      exact ⟨fun hgood => Or.inr hgood.1,
        fun hcareful => ⟨hcareful.resolve_left ht, fun ha => by cases ha⟩⟩
  | succeeded i =>
    obtain ⟨x, hx, rfl⟩ := Option.map_eq_some_iff.mp hs
    by_cases ht : composer.text w.form = ""
    · exact iff_of_true ⟨h.once.answer hx, fun _ hne => absurd ht hne⟩ (Or.inl ht)
    · constructor
      · rintro ⟨-, herased⟩
        obtain ⟨y, hy, hd, hack⟩ := herased rfl ht (composer.text_done w.form)
        refine Or.inr fun z hz => ?_
        obtain rfl := Option.some.inj (hx.symm.trans hz)
        rcases mem_answer hy with hy | rfl
        · exact absurd (h.ended y hy hack) hd.not_lt
        · exact hd
      · intro hcareful
        exact ⟨h.once.answer hx, fun _ _ _ =>
          ⟨_, answer_mem hx, hcareful.resolve_left ht x hx, rfl⟩⟩

/-- Along a whole run: each draft is written at most once among the writes not reported as
failed and is erased only when acknowledged, exactly when every tap and success is careful. -/
theorem run_onceOrKept_iff {form : φ} {as : List (Act φ)}
    (h : Run (step composer) (initial form) as w) :
    Along (step composer) (initial form) (OnceOrKept composer) as ↔
      Along (step composer) (initial form) (Careful composer) as :=
  along_iff (I := Sound) h
    ⟨by simp [initial], by simp [initial], fun d => by simp [initial]⟩
    (fun hI hs => onceOrKept_iff hI hs) fun hI hgood hs => hI.step hs (hgood _ hs).1

/-- The property is lost with the first step that is not careful. -/
theorem not_onceOrKept {form : φ} {as : List (Act φ)}
    (hr : Run (step composer) (initial form) as w) (hs : step composer w a = some w')
    (hno : ¬ Careful composer w a) :
    ¬ Along (step composer) (initial form) (OnceOrKept composer) (as ++ [a]) := fun hgood =>
  hno (((run_onceOrKept_iff (hr.snoc hs)).mp hgood).last hr)

end LoopChat.DraftWrites
