import Mathlib.Algebra.Group.Nat.Defs
import Mathlib.Data.List.DropRight
import Multicast.Settings

/-! The numbers in the settings. A text has a number if, blanks at its ends aside, it is a numeral
with at most one plus sign before it; the settings take this number if it fits the width, and they
take the default in every other case. -/

namespace Multicast.Settings

open Text (isBlank trimChars)

/-- A numeral and the number that it stands for: a digit, or a numeral and one more digit. -/
inductive Numeral : List Char → Nat → Prop
  | digit {d : Nat} (hd : d < 10) : Numeral [Nat.digitChar d] d
  | snoc {cs : List Char} {n d : Nat} (hcs : Numeral cs n) (hd : d < 10) :
      Numeral (cs ++ [Nat.digitChar d]) (10 * n + d)

/-- Blanks, at most one plus sign, a numeral for `n`, blanks. -/
def Spells (s : String) (n : Nat) : Prop :=
  ∃ before sign digits after, s.toList = before ++ (sign ++ digits) ++ after ∧
    (∀ c ∈ before, isBlank c) ∧ (∀ c ∈ after, isBlank c) ∧ (sign = [] ∨ sign = ['+']) ∧
    Numeral digits n

/-! ### Numerals -/

section Numerals

variable {cs : List Char} {c : Char} {n m : Nat}

theorem digitChar_of_isDigit (hc : c.isDigit) :
    c.toNat - '0'.toNat < 10 ∧ Nat.digitChar (c.toNat - '0'.toNat) = c := by
  have hrange : 48 ≤ c.toNat ∧ c.toNat ≤ 57 := by
    simpa [Char.isDigit, UInt32.le_iff_toNat_le] using hc
  have hlt : c.toNat - '0'.toNat < 10 := by
    have hzero : '0'.toNat = 48 := rfl
    omega
  refine ⟨hlt, Char.toNat_inj.mp ?_⟩
  rw [Nat.toNat_digitChar_of_lt_ten hlt]
  have hzero : '0'.toNat = 48 := rfl
  omega

theorem isBlank_digitChar {d : Nat} (hd : d < 10) : isBlank (Nat.digitChar d) = false := by
  revert d
  decide

theorem isBlank_of_isDigit (hc : c.isDigit) : isBlank c = false := by
  obtain ⟨hlt, hchar⟩ := digitChar_of_isDigit hc
  rw [← hchar]
  exact isBlank_digitChar hlt

namespace Numeral

theorem ne_nil (h : Numeral cs n) : cs ≠ [] := by
  cases h <;> simp

theorem isDigit (h : Numeral cs n) : ∀ c ∈ cs, c.isDigit := by
  induction h with
  | digit hd => simpa [Nat.isDigit_digitChar] using hd
  | snoc _ hd ih =>
    intro c hc
    rcases List.mem_append.mp hc with hmem | hlast
    · exact ih c hmem
    · rw [List.mem_singleton.mp hlast, Nat.isDigit_digitChar]
      exact decide_eq_true hd

/-- What a numeral stands for is its value in the decimal system. -/
theorem ofDigitChars_eq (h : Numeral cs n) : Nat.ofDigitChars 10 cs 0 = n := by
  induction h with
  | digit hd => rw [Nat.ofDigitChars_cons_digitChar_of_lt_ten hd, Nat.ofDigitChars_nil]; omega
  | snoc _ hd ih =>
    rw [Nat.ofDigitChars_append, ih, Nat.ofDigitChars_cons_digitChar_of_lt_ten hd,
      Nat.ofDigitChars_nil]

theorem unique (hn : Numeral cs n) (hm : Numeral cs m) : n = m :=
  hn.ofDigitChars_eq.symm.trans hm.ofDigitChars_eq

theorem of_isDigit (hne : cs ≠ []) (hdigits : ∀ c ∈ cs, c.isDigit) :
    Numeral cs (Nat.ofDigitChars 10 cs 0) := by
  induction cs using List.reverseRecOn with
  | nil => exact absurd rfl hne
  | append_singleton cs c ih =>
    obtain ⟨hlt, hchar⟩ := digitChar_of_isDigit (hdigits c (by simp))
    rw [Nat.ofDigitChars_append, ← hchar, Nat.ofDigitChars_cons_digitChar_of_lt_ten hlt,
      Nat.ofDigitChars_nil]
    rcases cs.eq_nil_or_concat' with rfl | ⟨front, last, rfl⟩
    · simpa using digit hlt
    · exact snoc (ih (by simp) fun c hc => hdigits c (List.mem_append_left _ hc)) hlt

/-- The shortest numeral of a number, with any number of zeros before it. -/
theorem zeros_toDigits (zeros n : Nat) :
    Numeral (List.replicate zeros '0' ++ Nat.toDigits 10 n) n := by
  have hdigits : ∀ c ∈ List.replicate zeros '0' ++ Nat.toDigits 10 n, c.isDigit := by
    intro c hc
    rcases List.mem_append.mp hc with hzero | hdigit
    · rw [List.eq_of_mem_replicate hzero]; rfl
    · exact Nat.isDigit_of_mem_toDigits (by decide) (by decide) hdigit
  have hvalue : Nat.ofDigitChars 10 (List.replicate zeros '0' ++ Nat.toDigits 10 n) 0 = n := by
    rw [Nat.ofDigitChars_append, Nat.ofDigitChars_replicate_zero, Nat.mul_zero,
      Nat.ofDigitChars_toDigits (by decide) (by decide)]
  have hnumeral := of_isDigit (by simp [Nat.toDigits_ne_nil]) hdigits
  rwa [hvalue] at hnumeral

/-- There are no numerals but these. -/
theorem exists_zeros (h : Numeral cs n) :
    ∃ zeros, cs = List.replicate zeros '0' ++ Nat.toDigits 10 n := by
  induction h with
  | digit hd => exact ⟨0, by rw [Nat.toDigits_of_lt_base hd]; rfl⟩
  | @snoc cs n d _ hd ih =>
    obtain ⟨zeros, rfl⟩ := ih
    rw [← Nat.toDigits_of_lt_base hd]
    rcases Nat.eq_zero_or_pos n with rfl | hpos
    · -- the numeral so far is zeros only, which now all stand before the digit
      refine ⟨zeros + 1, ?_⟩
      rw [Nat.toDigits_zero, List.replicate_succ', Nat.mul_zero, Nat.zero_add]
    · refine ⟨zeros, ?_⟩
      rw [List.append_assoc, Nat.toDigits_append_toDigits (by decide) hpos hd]

end Numeral

end Numerals

/-! ### Blanks at the ends -/

section Trimming

variable {cs core before after : List Char}

theorem trimChars_eq (cs : List Char) : trimChars cs = (cs.dropWhile isBlank).rdropWhile isBlank :=
  rfl

theorem exists_trimChars (cs : List Char) : ∃ before after,
    cs = before ++ trimChars cs ++ after ∧ (∀ c ∈ before, isBlank c) ∧ ∀ c ∈ after, isBlank c := by
  refine ⟨cs.takeWhile isBlank, (cs.dropWhile isBlank).rtakeWhile isBlank, ?_,
    fun c => List.mem_takeWhile_imp, fun c => List.mem_rtakeWhile_imp⟩
  rw [trimChars_eq, List.append_assoc, List.rdropWhile_append_rtakeWhile,
    List.takeWhile_append_dropWhile]

theorem head_trimChars (h : trimChars cs ≠ []) : isBlank ((trimChars cs).head h) = false := by
  have hkept : cs.dropWhile isBlank ≠ [] := by
    intro hnil
    exact h (by rw [trimChars_eq, hnil]; rfl)
  have hhead : (trimChars cs).head h = (cs.dropWhile isBlank).head hkept :=
    (List.rdropWhile_prefix isBlank (cs.dropWhile isBlank)).head h
  rw [hhead]
  exact List.head_dropWhile_not _ hkept

theorem getLast_trimChars (h : trimChars cs ≠ []) : isBlank ((trimChars cs).getLast h) = false :=
  Bool.eq_false_iff.mpr (List.rdropWhile_last_not isBlank (cs.dropWhile isBlank) h)

theorem dropWhile_isBlank_of_nonblank (hne : core ≠ []) (hcore : ∀ c ∈ core, isBlank c = false) :
    (core ++ after).dropWhile isBlank = core ++ after := by
  rw [List.dropWhile_eq_self_iff]
  intro hlength
  obtain ⟨c, cs, rfl⟩ := List.exists_cons_of_ne_nil hne
  exact Bool.eq_false_iff.mp (hcore c (List.mem_cons_self ..))

/-- The blanks at the ends go, and no more. -/
theorem trimChars_of_nonblank (hbefore : ∀ c ∈ before, isBlank c) (hafter : ∀ c ∈ after, isBlank c)
    (hne : core ≠ []) (hcore : ∀ c ∈ core, isBlank c = false) :
    trimChars (before ++ core ++ after) = core := by
  rw [trimChars, List.append_assoc, List.dropWhile_append_of_pos hbefore,
    dropWhile_isBlank_of_nonblank hne hcore, List.reverse_append,
    List.dropWhile_append_of_pos fun c hc => hafter c (List.mem_reverse.mp hc),
    ← List.append_nil core.reverse,
    dropWhile_isBlank_of_nonblank (by simpa using hne) fun c hc => hcore c (List.mem_reverse.mp hc),
    List.append_nil, List.reverse_reverse]

end Trimming

/-! ### What is read -/

section Reading

variable {width n m : Nat} {cs ds : List Char} {s : String}

theorem dropPlus_numeral (h : Numeral ds n) : dropPlus ds = ds := by
  obtain ⟨c, cs, rfl⟩ := List.exists_cons_of_ne_nil h.ne_nil
  have hplus : c ≠ '+' := by
    rintro rfl
    exact absurd (h.isDigit '+' (List.mem_cons_self ..)) (by decide)
  unfold dropPlus
  split
  · next heq => exact absurd (List.cons.inj heq).1 hplus
  · rfl

theorem sign_append_dropPlus (cs : List Char) :
    ∃ sign, (sign = [] ∨ sign = ['+']) ∧ cs = sign ++ dropPlus cs := by
  unfold dropPlus
  split
  · exact ⟨['+'], .inr rfl, rfl⟩
  · exact ⟨[], .inl rfl, rfl⟩

theorem dropPlus_sign_append {sign : List Char} (hsign : sign = [] ∨ sign = ['+'])
    (h : Numeral ds n) : dropPlus (sign ++ ds) = ds := by
  rcases hsign with rfl | rfl
  · exact dropPlus_numeral h
  · rfl

theorem numberOfChars?_eq_some_iff :
    numberOfChars? width cs = some n ↔ Numeral (dropPlus cs) n ∧ n < 2 ^ width := by
  unfold numberOfChars?
  constructor
  · intro h
    obtain ⟨hread, hvalue⟩ := Option.ite_none_right_eq_some.mp h
    simp only [Bool.and_eq_true, Bool.not_eq_true', List.isEmpty_eq_false_iff, List.all_eq_true,
      decide_eq_true_eq] at hread
    obtain ⟨⟨hne, hdigits⟩, hbound⟩ := hread
    rw [Option.some.injEq] at hvalue
    exact ⟨hvalue ▸ Numeral.of_isDigit hne hdigits, hvalue ▸ hbound⟩
  · rintro ⟨hnumeral, hbound⟩
    have hvalue : digitsValue (dropPlus cs) = n := hnumeral.ofDigitChars_eq
    have hdigits : (dropPlus cs).all Char.isDigit := List.all_eq_true.mpr hnumeral.isDigit
    simpa [hvalue, hdigits, hnumeral.ne_nil] using hbound

theorem sign_numeral_nonblank {sign : List Char} (hsign : sign = [] ∨ sign = ['+'])
    (h : Numeral ds n) : sign ++ ds ≠ [] ∧ ∀ c ∈ sign ++ ds, isBlank c = false := by
  refine ⟨by simp [h.ne_nil], fun c hc => ?_⟩
  rcases List.mem_append.mp hc with hmem | hmem
  · rcases hsign with rfl | rfl
    · exact absurd hmem List.not_mem_nil
    · rw [List.mem_singleton.mp hmem]; rfl
  · exact isBlank_of_isDigit (h.isDigit c hmem)

theorem spells_iff : Spells s n ↔ Numeral (dropPlus (trimChars s.toList)) n := by
  constructor
  · rintro ⟨before, sign, ds, after, hs, hbefore, hafter, hsign, hnumeral⟩
    obtain ⟨hne, hcore⟩ := sign_numeral_nonblank hsign hnumeral
    rw [hs, trimChars_of_nonblank hbefore hafter hne hcore, dropPlus_sign_append hsign hnumeral]
    exact hnumeral
  · intro h
    obtain ⟨before, after, hs, hbefore, hafter⟩ := exists_trimChars s.toList
    obtain ⟨sign, hsign, hcore⟩ := sign_append_dropPlus (trimChars s.toList)
    exact ⟨before, sign, _, after, hcore ▸ hs, hbefore, hafter, hsign, h⟩

theorem number?_eq_some_iff : number? width s = some n ↔ Spells s n ∧ n < 2 ^ width := by
  rw [number?, numberOfChars?_eq_some_iff, spells_iff]

theorem number?_eq_none_iff : number? width s = none ↔ ∀ n, Spells s n → 2 ^ width ≤ n := by
  simp only [Option.eq_none_iff_forall_not_mem, Option.mem_def, number?_eq_some_iff, not_and,
    Nat.not_lt]

theorem Spells.unique (hn : Spells s n) (hm : Spells s m) : n = m :=
  (spells_iff.mp hn).unique (spells_iff.mp hm)

/-- The spellings of a number differ in the blanks around it, in the plus sign and in the zeros at
its front, and in nothing else. -/
theorem spells_iff_exists_zeros : Spells s n ↔ ∃ before sign zeros after,
    s.toList = before ++ (sign ++ (List.replicate zeros '0' ++ Nat.toDigits 10 n)) ++ after ∧
      (∀ c ∈ before, isBlank c) ∧ (∀ c ∈ after, isBlank c) ∧ (sign = [] ∨ sign = ['+']) := by
  constructor
  · rintro ⟨before, sign, ds, after, hs, hbefore, hafter, hsign, hnumeral⟩
    obtain ⟨zeros, rfl⟩ := hnumeral.exists_zeros
    exact ⟨before, sign, zeros, after, hs, hbefore, hafter, hsign⟩
  · rintro ⟨before, sign, zeros, after, hs, hbefore, hafter, hsign⟩
    exact ⟨before, sign, _, after, hs, hbefore, hafter, hsign, .zeros_toDigits zeros n⟩

/-! ### What is not read -/

/-- What keeps a text from being a number of the width. -/
inductive Fault (width : Nat) (s : String) : Prop
  /-- a minus sign, a letter, a digit of another script -/
  | foreign {c : Char} (hc : c ∈ s.toList) (hsign : c ≠ '+') (hblank : isBlank c = false)
      (hdigit : c.isDigit = false)
  /-- a plus sign after a digit or after another sign -/
  | sign {front back : List Char} {c : Char} (hs : s.toList = front ++ '+' :: back)
      (hc : c ∈ front) (hblank : isBlank c = false)
  /-- a blank between two characters -/
  | blank {front back : List Char} {b c d : Char} (hs : s.toList = front ++ b :: back)
      (hb : isBlank b) (hc : c ∈ front) (hcblank : isBlank c = false)
      (hd : d ∈ back) (hdblank : isBlank d = false)
  | noDigits (h : ∀ c ∈ s.toList, c.isDigit = false)
  | tooLarge {n : Nat} (h : Spells s n) (hn : 2 ^ width ≤ n)

theorem mem_core_of_nonblank {before core after : List Char} {c : Char}
    (hbefore : ∀ c ∈ before, isBlank c) (hafter : ∀ c ∈ after, isBlank c)
    (hc : c ∈ before ++ core ++ after) (hblank : isBlank c = false) : c ∈ core := by
  simp only [List.mem_append] at hc
  rcases hc with (hc | hc) | hc
  · exact absurd (hbefore c hc) (Bool.eq_false_iff.mp hblank)
  · exact hc
  · exact absurd (hafter c hc) (Bool.eq_false_iff.mp hblank)

/-- A character with others before it and after it stands among those that the trimming keeps. -/
theorem exists_split_core {before core after front back : List Char} {x c d : Char}
    (hs : before ++ core ++ after = front ++ x :: back)
    (hbefore : ∀ c ∈ before, isBlank c) (hafter : ∀ c ∈ after, isBlank c)
    (hc : c ∈ front) (hcblank : isBlank c = false)
    (hd : d ∈ x :: back) (hdblank : isBlank d = false) :
    ∃ p q, core = p ++ x :: q ∧ c ∈ p := by
  have hnotAfter : ∀ l, after ≠ l ++ x :: back := by
    rintro l rfl
    exact absurd (hafter d (List.mem_append_right _ hd)) (Bool.eq_false_iff.mp hdblank)
  obtain ⟨l, -, hl⟩ | ⟨l, hfront, hback⟩ := List.append_eq_append_iff.mp hs
  · exact absurd hl (hnotAfter l)
  rcases l with _ | ⟨y, q⟩
  · exact absurd hback.symm (hnotAfter [])
  obtain ⟨rfl, -⟩ := List.cons.inj hback
  obtain ⟨p, hp, hcore⟩ | ⟨p, hp, -⟩ := List.append_eq_append_iff.mp hfront
  · refine ⟨p, q, hcore, ?_⟩
    rcases List.mem_append.mp (hp ▸ hc) with hmem | hmem
    · exact absurd (hbefore c hmem) (Bool.eq_false_iff.mp hcblank)
    · exact hmem
  · have hmem : c ∈ before := hp ▸ List.mem_append_left _ hc
    exact absurd (hbefore c hmem) (Bool.eq_false_iff.mp hcblank)

/-- A text with a number has no fault but its size. -/
theorem Spells.le_of_fault (h : Spells s n) (hfault : Fault width s) : 2 ^ width ≤ n := by
  have hspelled := h
  obtain ⟨before, sign, ds, after, hs, hbefore, hafter, hsign, hnumeral⟩ := h
  obtain ⟨-, hcore⟩ := sign_numeral_nonblank hsign hnumeral
  have hplus : '+' ∉ ds := fun hmem => absurd (hnumeral.isDigit _ hmem) (by decide)
  cases hfault with
  | foreign hc hne hblank hdigit =>
    rw [hs] at hc
    exfalso
    rcases List.mem_append.mp (mem_core_of_nonblank hbefore hafter hc hblank) with hmem | hmem
    · rcases hsign with rfl | rfl
      · exact absurd hmem List.not_mem_nil
      · exact hne (List.mem_singleton.mp hmem)
    · exact absurd (hnumeral.isDigit _ hmem) (Bool.eq_false_iff.mp hdigit)
  | sign hs' hc hblank =>
    obtain ⟨p, q, hsplit, hp⟩ := exists_split_core (hs ▸ hs') hbefore hafter hc hblank
      (List.mem_cons_self ..) (by decide)
    exfalso
    rcases hsign with rfl | rfl
    · exact hplus (by rw [List.nil_append] at hsplit; rw [hsplit]; simp)
    · obtain ⟨y, p, rfl⟩ := List.exists_cons_of_ne_nil (List.ne_nil_of_mem hp)
      have htail : ds = p ++ '+' :: q := (List.cons.inj hsplit).2
      exact hplus (by rw [htail]; simp)
  | @blank _ _ b _ _ hs' hb hc hcblank hd hdblank =>
    obtain ⟨p, q, hsplit, -⟩ := exists_split_core (hs ▸ hs') hbefore hafter hc hcblank
      (List.mem_cons_of_mem _ hd) hdblank
    have hmem : b ∈ sign ++ ds := by rw [hsplit]; simp
    have hfalse := hcore b hmem
    exact absurd hb (Bool.eq_false_iff.mp hfalse)
  | noDigits hnone =>
    obtain ⟨c, cs, rfl⟩ := List.exists_cons_of_ne_nil hnumeral.ne_nil
    have hfalse := hnone c (by rw [hs]; simp)
    exact absurd (hnumeral.isDigit c (List.mem_cons_self ..)) (Bool.eq_false_iff.mp hfalse)
  | tooLarge hm hn => exact hspelled.unique hm ▸ hn

theorem exists_split_dropPlus {c : Char} (hc : c ∈ dropPlus cs) :
    ∃ p q, cs = p ++ c :: q ∧ (c = '+' → p ≠ []) := by
  unfold dropPlus at hc
  split at hc
  · next cs =>
    obtain ⟨p, q, rfl⟩ := List.append_of_mem hc
    exact ⟨'+' :: p, q, rfl, fun _ => List.cons_ne_nil _ _⟩
  · next cs hplus =>
    obtain ⟨p, q, rfl⟩ := List.append_of_mem hc
    refine ⟨p, q, rfl, ?_⟩
    rintro rfl rfl
    exact hplus q rfl

/-- A text without a fault has a number. -/
theorem exists_spells_of_not_fault (hsound : ¬ Fault width s) : ∃ n, Spells s n := by
  obtain ⟨before, after, hs, hbefore, hafter⟩ := exists_trimChars s.toList
  obtain ⟨sign, hsign, hcore⟩ := sign_append_dropPlus (trimChars s.toList)
  have hmem : ∀ c ∈ trimChars s.toList, c ∈ s.toList := by
    intro c hc
    rw [hs]
    exact List.mem_append_left _ (List.mem_append_right _ hc)
  have hne : dropPlus (trimChars s.toList) ≠ [] := by
    obtain ⟨c, hc, hdigit⟩ : ∃ c ∈ s.toList, c.isDigit := by
      by_contra hnone
      refine hsound (.noDigits fun c hc => ?_)
      exact Bool.eq_false_iff.mpr fun hdigit => hnone ⟨c, hc, hdigit⟩
    have hkept : c ∈ trimChars s.toList :=
      mem_core_of_nonblank hbefore hafter (hs ▸ hc) (isBlank_of_isDigit hdigit)
    intro hnil
    rw [hcore, hnil, List.append_nil] at hkept
    rcases hsign with rfl | rfl
    · exact absurd hkept List.not_mem_nil
    · rw [List.mem_singleton.mp hkept] at hdigit
      exact absurd hdigit (by decide)
  refine ⟨_, spells_iff.mpr (.of_isDigit hne fun c hc => ?_)⟩
  obtain ⟨p, q, hsplit, hp⟩ := exists_split_dropPlus hc
  have htrim : trimChars s.toList ≠ [] := by simp [hsplit]
  have hs' : s.toList = (before ++ p) ++ c :: (q ++ after) := by
    rw [hs, hsplit]
    simp
  -- whatever stands before a kept character that is not the first begins with no blank
  have hfirst : p ≠ [] → ∃ x ∈ before ++ p, isBlank x = false := by
    intro hne'
    obtain ⟨x, p, rfl⟩ := List.exists_cons_of_ne_nil hne'
    have hhead := head_trimChars htrim
    simp only [hsplit, List.cons_append, List.head_cons] at hhead
    exact ⟨x, by simp, hhead⟩
  by_contra hdigit
  have hdigit' : c.isDigit = false := Bool.eq_false_iff.mpr hdigit
  cases hblank : isBlank c with
  | false =>
    by_cases hplus : c = '+'
    · subst hplus
      obtain ⟨x, hx, hxblank⟩ := hfirst (hp rfl)
      exact hsound (.sign hs' hx hxblank)
    · exact hsound (.foreign (hmem c (by rw [hsplit]; simp)) hplus hblank hdigit')
  | true =>
    obtain ⟨x, hx, hxblank⟩ := hfirst (by
      rintro rfl
      have hhead := head_trimChars htrim
      simp only [hsplit, List.nil_append, List.head_cons, hblank, Bool.true_eq_false] at hhead)
    obtain ⟨y, hy, hyblank⟩ : ∃ y ∈ q ++ after, isBlank y = false := by
      have hlast := getLast_trimChars htrim
      rcases q.eq_nil_or_concat' with rfl | ⟨q, y, rfl⟩
      · simp [hsplit, hblank] at hlast
      · have hy : isBlank y = false := by simpa [hsplit] using hlast
        exact ⟨y, by simp, hy⟩
    exact hsound (.blank hs' hblank hx hxblank hy hyblank)

/-- The texts that give no number of a width are those with a fault. -/
theorem number?_eq_none_iff_fault : number? width s = none ↔ Fault width s := by
  rw [number?_eq_none_iff]
  constructor
  · intro hlarge
    by_contra hsound
    obtain ⟨n, hn⟩ := exists_spells_of_not_fault hsound
    exact hsound (.tooLarge hn (hlarge n hn))
  · exact fun hfault n hn => hn.le_of_fault hfault

end Reading

/-! ### What the settings take -/

section Taken

variable {lookup : Lookup} {key s : String} {width n : Nat}

theorem natural_of_some (hset : lookup key = some s) (width default : Nat) :
    natural lookup key width default = (number? width s).getD default := by
  rw [natural, hset, Option.bind_some]

theorem millis_of_some (hset : lookup key = some s) (default : Duration) :
    millis lookup key default = ((number? 64 s).map Duration.ofMillis).getD default := by
  rw [millis, hset, Option.bind_some]

theorem seconds_of_some (hset : lookup key = some s) (default : Duration) :
    seconds lookup key default = ((number? 64 s).map Duration.ofSeconds).getD default := by
  rw [seconds, hset, Option.bind_some]

theorem inNanos_ofMillis (m : Nat) : (Duration.ofMillis m).inNanos = m * 1000000 := by
  simp only [Duration.inNanos, Duration.ofMillis]
  omega

/-- A setting with a number takes the number that its text spells, if it fits the width, and the
default otherwise. The text spells it with blanks around it, with or without a plus sign and with
any number of zeros before its digits, and in no other way; and the text has no number exactly if
it has one of the faults. -/
theorem number_or_default (lookup : Lookup) (key s : String) (hset : lookup key = some s)
    (width : Nat) :
    (∀ n, Spells s n → n < 2 ^ width → ∀ default, natural lookup key width default = n) ∧
    ((∀ n, Spells s n → 2 ^ width ≤ n) →
      ∀ default, natural lookup key width default = default) ∧
    (∀ n, number? width s = some n ↔ Spells s n ∧ n < 2 ^ width) ∧
    (number? width s = none ↔ Fault width s) ∧
    (∀ n, Spells s n ↔ ∃ before sign zeros after,
      s.toList = before ++ (sign ++ (List.replicate zeros '0' ++ Nat.toDigits 10 n)) ++ after ∧
        (∀ c ∈ before, isBlank c) ∧ (∀ c ∈ after, isBlank c) ∧ (sign = [] ∨ sign = ['+'])) ∧
    (∀ n m, Spells s n → Spells s m → n = m) ∧
    (∀ m, Spells s m → m < 2 ^ 64 → ∀ default,
      millis lookup key default = ⟨m / 1000, m % 1000 * 10 ^ 6⟩ ∧
      (millis lookup key default).nanos < 10 ^ 9 ∧
      (millis lookup key default).inNanos = m * 10 ^ 6 ∧
      seconds lookup key default = ⟨m, 0⟩) ∧
    ((∀ m, Spells s m → 2 ^ 64 ≤ m) → ∀ default,
      millis lookup key default = default ∧ seconds lookup key default = default) := by
  refine ⟨?taken, ?left, fun n => number?_eq_some_iff, number?_eq_none_iff_fault,
    fun n => spells_iff_exists_zeros, fun n m hn hm => hn.unique hm, ?duration, ?period⟩
  case taken =>
    intro n hn hbound default
    rw [natural_of_some hset, number?_eq_some_iff.mpr ⟨hn, hbound⟩, Option.getD_some]
  case left =>
    intro hlarge default
    rw [natural_of_some hset, number?_eq_none_iff.mpr hlarge, Option.getD_none]
  case duration =>
    intro m hm hbound default
    have hnumber : number? 64 s = some m := number?_eq_some_iff.mpr ⟨hm, hbound⟩
    have hmillis : millis lookup key default = .ofMillis m := by
      rw [millis_of_some hset, hnumber, Option.map_some, Option.getD_some]
    have hseconds : seconds lookup key default = .ofSeconds m := by
      rw [seconds_of_some hset, hnumber, Option.map_some, Option.getD_some]
    refine ⟨hmillis, ?_, hmillis ▸ inNanos_ofMillis m, hseconds⟩
    have hnanos : m % 1000 * 1000000 < 10 ^ 9 := by omega
    rwa [hmillis]
  case period =>
    intro hlarge default
    have hnumber : number? 64 s = none := number?_eq_none_iff.mpr hlarge
    rw [millis_of_some hset, seconds_of_some hset, hnumber]
    exact ⟨rfl, rfl⟩

/-- The greatest port is taken, with all that may stand around its digits; the number after it is
not, and leaves the default. -/
theorem number_or_default_of_greatest_port :
    natural (fun _ => some " +0065535\t") metricsPortKey 16 9090 = 65535 ∧
      natural (fun _ => some "65536") metricsPortKey 16 9090 = 9090 := by
  have hgreatest : Spells " +0065535\t" 65535 := spells_iff_exists_zeros.mpr
    ⟨[' '], ['+'], 2, ['\t'], by decide +kernel, List.forall_mem_singleton.mpr rfl,
      List.forall_mem_singleton.mpr rfl, .inr rfl⟩
  have hnext : Spells "65536" 65536 := spells_iff_exists_zeros.mpr
    ⟨[], [], 0, [], by decide +kernel, nofun, nofun, .inl rfl⟩
  exact ⟨(number_or_default (fun _ => some " +0065535\t") metricsPortKey _ rfl 16).1 65535
      hgreatest (by decide) 9090,
    (number_or_default (fun _ => some "65536") metricsPortKey _ rfl 16).2.1
      (fun n hn => Nat.le_of_eq (hnext.unique hn)) 9090⟩

end Taken

end Multicast.Settings
