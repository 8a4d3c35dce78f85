import Multicast.Proofs.Cursor

/-! A cursor stands at the greatest id that it was moved to, in whatever order and however often the
ids came. So whether data is stale depends on its largest id alone, moving to an id has an effect
just if this id was not stale before, and what is stale once is stale for good. -/

namespace Multicast.Cursor

attribute [ext] Cursor

variable {ι : Type} [LinearOrder ι]

/-- The cursor after it was moved to one id after the other. -/
def advanceAll (c : Cursor ι) (ids : List ι) : Cursor ι :=
  ids.foldl (fun c id => (c.advance id).1) c

variable {c : Cursor ι} {policy : StalePolicy} {p q i j m id : ι} {ids : List ι}

/-! ### Where it stands -/

theorem advanceAll_cons : c.advanceAll (id :: ids) = (c.advance id).1.advanceAll ids := rfl

/-- The position from which the cursor starts counts like one more id. -/
theorem position_advanceAll : (c.advanceAll ids).position = (c.position.toList ++ ids).max? := by
  -- by induction on the ids for every cursor, since a move changes what comes first
  induction ids generalizing c with
  | nil => cases hc : c.position <;> simp [advanceAll, hc]
  | cons id ids ih =>
    rw [advanceAll_cons, ih, position_advance]
    cases c.position with
    | none => rfl
    | some p =>
      calc (max id p :: ids).max? = (max p id :: ids).max? := by rw [max_comm]
        _ = (p :: id :: ids).max? := (max?_cons_cons p id ids).symm

/-! ### What is stale -/

/-- With an id smaller ones are stale as well, and at larger positions. -/
theorem idIsStale_mono (h : idIsStale policy p i = true) (hji : j ≤ i) (hpq : p ≤ q) :
    idIsStale policy q j = true := by
  cases policy with
  | older =>
    rw [idIsStale_older_iff] at h ⊢
    calc j ≤ i := hji
      _ < p := h
      _ ≤ q := hpq
  | notAfter =>
    rw [idIsStale_notAfter_iff] at h ⊢
    calc j ≤ i := hji
      _ ≤ p := h
      _ ≤ q := hpq

/-- Of all ids only the largest one matters. -/
theorem isStale_iff_of_max? (hm : ids.max? = some m) : c.isStale policy ids = true ↔
    ∃ p, c.position = some p ∧ idIsStale policy p m = true := by
  obtain ⟨hmem, hle⟩ := List.max?_eq_some_iff.mp hm
  rw [isStale_eq_true_iff]
  constructor
  · rintro ⟨-, p, hp, hall⟩
    exact ⟨p, hp, hall m hmem⟩
  · rintro ⟨p, hp, hstale⟩
    exact ⟨List.ne_nil_of_mem hmem, p, hp, fun i hi => idIsStale_mono hstale (hle i hi) le_rfl⟩

/-- A move does not make stale data fresh. -/
theorem isStale_advance (h : c.isStale policy ids = true) (id : ι) :
    (c.advance id).1.isStale policy ids = true := by
  obtain ⟨hne, p, hp, hall⟩ := isStale_eq_true_iff.mp h
  have hmoved : (c.advance id).1.position = some (max id p) := by
    rw [position_advance, hp]
    rfl
  have hstale : ∀ i ∈ ids, idIsStale policy (max id p) i = true := by
    intro i hi
    exact idIsStale_mono (hall i hi) le_rfl (le_max_right id p)
  exact isStale_eq_true_iff.mpr ⟨hne, max id p, hmoved, hstale⟩

theorem isStale_advanceAll (h : c.isStale policy ids = true) (more : List ι) :
    (c.advanceAll more).isStale policy ids = true := by
  induction more generalizing c with
  | nil => exact h
  | cons id more ih => exact ih (isStale_advance h id)

/-- Just the ids that are not stale at the cursor move it. -/
theorem advance_snd_eq_not_isStale (c : Cursor ι) (id : ι) :
    (c.advance id).2 = !c.isStale .notAfter [id] := by
  rw [advance, isStale]
  cases c.position with
  | none => rfl
  | some p =>
    by_cases h : p < id
    · simp [h, idIsStale]
    · simp [h, idIsStale]

/-- A new cursor comes to stand at the maximum of the ids to which it is moved, if there are any, and
so at the same place for all lists with the same members. Each move is effective just if a batch of
this one item was not stale, when data at the position is not to be written again. Data with items is
stale just if its largest id is below the position, or not above it, as the policy has it; and it
stays so wherever the cursor moves. -/
theorem stands_at_greatest (ids : List ι) :
    ((new : Cursor ι).advanceAll ids).position = ids.max? ∧
      (∀ ids' : List ι, (∀ i, i ∈ ids' ↔ i ∈ ids) →
        (new : Cursor ι).advanceAll ids' = new.advanceAll ids) ∧
      (∀ (c : Cursor ι) (item : Item ι),
        (c.advance item.id).2 = !c.isStale .notAfter (Batch.single item).ids) ∧
      (∀ (c : Cursor ι) (b : Batch ι), b.items ≠ [] → ∃ m, b.ids.max? = some m ∧
        (c.isStale .older b.ids = true ↔ ∃ p, c.position = some p ∧ m < p) ∧
        (c.isStale .notAfter b.ids = true ↔ ∃ p, c.position = some p ∧ m ≤ p)) ∧
      ∀ (c : Cursor ι) (policy : StalePolicy) (b : Batch ι) (more : List ι),
        c.isStale policy b.ids = true → (c.advanceAll more).isStale policy b.ids = true := by
  have hposition : ∀ ids : List ι, ((new : Cursor ι).advanceAll ids).position = ids.max? :=
    fun ids => position_advanceAll
  refine ⟨hposition ids, ?_, ?_, ?_, ?_⟩
  · intro ids' hsame
    ext1
    rw [hposition, hposition, max?_eq_of_mem_iff hsame]
  · intro c item
    exact advance_snd_eq_not_isStale c item.id
  · intro c b hne
    have hids : b.ids ≠ [] := by simpa [Batch.ids] using hne
    obtain ⟨m, hm⟩ := Option.ne_none_iff_exists'.mp (mt List.max?_eq_none_iff.mp hids)
    refine ⟨m, hm, ?_, ?_⟩
    · simp only [isStale_iff_of_max? hm, idIsStale_older_iff]
    · simp only [isStale_iff_of_max? hm, idIsStale_notAfter_iff]
  · intro c policy b more h
    exact isStale_advanceAll h more

/-- Repetitions do not count, and data at the position is stale by one policy only. -/
theorem stands_at_greatest_of_repeats :
    let c : Cursor Nat := new.advanceAll [3, 10, 7]
    let b : Batch Nat := ⟨[⟨10, "a"⟩, ⟨4, "b"⟩]⟩
    (∀ i, i ∈ [10, 7, 10, 3, 3] ↔ i ∈ [3, 10, 7]) ∧ new.advanceAll [10, 7, 10, 3, 3] = c ∧
      b.items ≠ [] ∧ (∃ m, b.ids.max? = some m ∧
        (c.isStale .older b.ids = true ↔ ∃ p, c.position = some p ∧ m < p) ∧
        (c.isStale .notAfter b.ids = true ↔ ∃ p, c.position = some p ∧ m ≤ p)) ∧
      c.isStale .older b.ids = false ∧ c.isStale .notAfter b.ids = true ∧
      (c.advanceAll [9, 12]).isStale .notAfter b.ids = true := by
  intro c b
  have hsame : ∀ i, i ∈ [10, 7, 10, 3, 3] ↔ i ∈ [3, 10, 7] := by
    intro i
    simp only [List.mem_cons, List.not_mem_nil, or_false]
    omega
  have hne : b.items ≠ [] := List.cons_ne_nil _ _
  have hstale : c.isStale .notAfter b.ids = true := by decide
  obtain ⟨-, hequal, -, hlargest, hkeeps⟩ := stands_at_greatest [3, 10, 7]
  exact ⟨hsame, hequal _ hsame, hne, hlargest c b hne, by decide, hstale,
    hkeeps c .notAfter b [9, 12] hstale⟩

end Multicast.Cursor
