import Mathlib.Data.List.Forall2
import Multicast.Proofs.Settings.Outcome

/-! The spellings of the words in the settings. The rules of the character standard turn just two
characters outside the ASCII range into ASCII ones: the Kelvin sign into a `k`, and the capital I with
a dot into an `i` and the dot. No word of the settings has an `i` or a `k`. So a text that becomes
such a word in lower case is this word with some of its letters in upper case, and to fold the letters
A to Z alone comes to the same. -/

namespace Multicast

namespace Text

/-- The same character, or the two forms of one of the letters A to Z. -/
def SameLetter (c d : Char) : Prop :=
  c = d ∨ c.isUpper ∧ d.toNat = c.toNat + 32 ∨ d.isUpper ∧ c.toNat = d.toNat + 32

/-- Two texts that differ in the case of the letters A to Z alone. -/
def EqUpToCase (s t : String) : Prop := List.Forall₂ SameLetter s.toList t.toList

/-- An ASCII character that is no capital letter, and not an `i` or a `k`. -/
def isPlain (c : Char) : Bool :=
  decide (c.toNat < 128) && !c.isUpper && decide (c ≠ 'i') && decide (c ≠ 'k')

variable {c d : Char} {before cs t : List Char} {v w : String}

theorem isPlain_iff :
    isPlain c = true ↔ c.toNat < 128 ∧ c.isUpper = false ∧ c ≠ 'i' ∧ c ≠ 'k' := by
  simp [isPlain, and_assoc]

/-! ### The letters A to Z -/

theorem isUpper_iff : c.isUpper = true ↔ 65 ≤ c.toNat ∧ c.toNat ≤ 90 := by
  have hrange : c.isUpper = true ↔ 'A'.val ≤ c.val ∧ c.val ≤ 'Z'.val := decide_eq_true_iff
  rw [hrange, UInt32.le_iff_toNat_le, UInt32.le_iff_toNat_le]
  exact Iff.rfl

theorem toNat_toLower :
    c.toLower.toNat = if 65 ≤ c.toNat ∧ c.toNat ≤ 90 then c.toNat + 32 else c.toNat := by
  by_cases h : c.isUpper = true
  · have hrange := isUpper_iff.mp h
    have hsum : (c.val + 32).toNat = (c.toNat + 32) % 2 ^ 32 := UInt32.toNat_add c.val 32
    have hlower : c.toLower.val = c.val + 32 := congrArg Char.val (dif_pos (of_decide_eq_true h))
    calc c.toLower.toNat = (c.val + 32).toNat := congrArg UInt32.toNat hlower
      _ = c.toNat + 32 := by rw [hsum]; omega
      _ = _ := (if_pos hrange).symm
  · have hself : c.toLower = c := dif_neg (mt decide_eq_true h)
    rw [if_neg (mt isUpper_iff.mpr h), hself]

/-- Two characters are the same letter if folding the letters A to Z makes them equal. -/
theorem sameLetter_iff : SameLetter c d ↔ c.toLower = d.toLower := by
  rw [SameLetter, isUpper_iff, isUpper_iff]
  simp only [← Char.toNat_inj, toNat_toLower]
  split
  · split
    · omega
    · omega
  · split
    · omega
    · omega

theorem eqUpToCase_iff : EqUpToCase v w ↔ lowerCaseAscii v = lowerCaseAscii w := by
  have hsame : SameLetter = fun c d => c.toLower = d.toLower := by
    funext c d
    exact propext sameLetter_iff
  rw [lowerCaseAscii, lowerCaseAscii, String.ofList_inj, EqUpToCase, hsame]
  rw [← List.forall₂_eq_eq_eq, List.forall₂_map_left_iff, List.forall₂_map_right_iff]

theorem toLower_of_isPlain (h : isPlain c = true) : c.toLower = c := by
  obtain ⟨-, hlower, -⟩ := isPlain_iff.mp h
  rw [← Char.toNat_inj, toNat_toLower, if_neg]
  rw [← isUpper_iff, hlower]
  exact Bool.false_ne_true

theorem toLower_of_not_ascii (h : 128 ≤ c.toNat) : c.toLower = c := by
  rw [← Char.toNat_inj, toNat_toLower, if_neg]
  omega

/-- A text in plain characters equals another one up to case if folding A to Z makes them equal. -/
theorem lowerCaseAscii_eq_iff (hw : ∀ d ∈ w.toList, isPlain d = true) :
    lowerCaseAscii v = w ↔ EqUpToCase v w := by
  have hfold : w.toList.map Char.toLower = w.toList := by
    calc w.toList.map Char.toLower = w.toList.map id :=
          List.map_congr_left fun d hd => toLower_of_isPlain (hw d hd)
      _ = w.toList := List.map_id _
  have hself : lowerCaseAscii w = w := by
    rw [lowerCaseAscii, hfold, String.ofList_toList]
  rw [eqUpToCase_iff, hself]

/-! ### The rules of the character standard -/

theorem toNat_ofNat {n : Nat} (h : n.isValidChar) : (Char.ofNat n).toNat = n := by
  rw [Char.ofNat, dif_pos h]
  rfl

/-- A run outside the ASCII range whose lower-case forms lie outside of it as well. -/
def CaseRun.Foreign (r : CaseRun) : Prop :=
  128 ≤ r.first ∧ 128 ≤ r.first + r.shift ∧
    (r.last + r.shift < 0xd800 ∨ 0xdfff < r.first + r.shift ∧ r.last + r.shift < 0x110000)

instance (r : CaseRun) : Decidable r.Foreign :=
  inferInstanceAs (Decidable (_ ∧ _ ∧ (_ ∨ _ ∧ _)))

theorem CaseRun.bounds_of_holds {r : CaseRun} {n : Nat} (h : r.holds n = true) :
    r.first ≤ n ∧ n ≤ r.last := by
  rw [holds, Bool.and_eq_true, Bool.and_eq_true] at h
  exact ⟨of_decide_eq_true h.1.1, of_decide_eq_true h.1.2⟩

theorem CaseRun.Foreign.le_toNat {r : CaseRun} (hr : r.Foreign) {n : Nat} (hn : r.holds n = true) :
    128 ≤ n ∧ 128 ≤ (Char.ofNat (n + r.shift).toNat).toNat := by
  obtain ⟨hfirst, himage, hvalid⟩ := hr
  obtain ⟨hle, hge⟩ := bounds_of_holds hn
  -- a code that is no character would become the character 0
  have hchar : ((n : Int) + r.shift).toNat.isValidChar := by
    rw [Nat.isValidChar]
    omega
  rw [toNat_ofNat hchar]
  omega

/-- All runs are foreign but those of the letters A to Z and of the Kelvin sign. -/
theorem lowerRuns_cases : ∀ r ∈ lowerRuns, r.first = 65 ∧ r.last = 90 ∧ r.shift = 32 ∨
    r.first = 0x212a ∧ r.last = 0x212a ∨ r.Foreign := by
  decide +kernel

/-- The lower-case form of a character is the plain one, or the character and its form lie outside
the ASCII range; but for the Kelvin sign. -/
theorem lowerChar_cases (c : Char) : lowerChar c = c.toLower ∨ c.toNat = 0x212a ∨
    128 ≤ c.toNat ∧ 128 ≤ (lowerChar c).toNat := by
  rw [lowerChar]
  split
  · next r hfind =>
    have hholds : r.holds c.toNat = true := by simpa using List.find?_some hfind
    have hin : r.first ≤ c.toNat ∧ c.toNat ≤ r.last := CaseRun.bounds_of_holds hholds
    rcases lowerRuns_cases r (List.mem_of_find?_eq_some hfind) with hletter | hkelvin | hforeign
    · obtain ⟨hfirst, hlast, hshift⟩ := hletter
      have hsum : ((c.toNat : Int) + r.shift).toNat = c.toNat + 32 := by omega
      have hvalid : (c.toNat + 32).isValidChar := by
        rw [Nat.isValidChar]
        omega
      left
      rw [hsum, ← Char.toNat_inj, toNat_ofNat hvalid, toNat_toLower, if_pos]
      omega
    · right; left
      omega
    · right; right
      exact hforeign.le_toNat hholds
  · next hnone =>
    -- no run holds the character, the one of the letters A to Z included
    have hletters : CaseRun.holds ⟨0x41, 0x5a, 1, 32⟩ c.toNat = false := by
      have hmem : (⟨0x41, 0x5a, 1, 32⟩ : CaseRun) ∈ lowerRuns := List.mem_cons_self
      simpa using List.find?_eq_none.mp hnone _ hmem
    have hout : ¬ (65 ≤ c.toNat ∧ c.toNat ≤ 90) := by
      simpa [CaseRun.holds, Nat.mod_one] using hletters
    left
    rw [← Char.toNat_inj, toNat_toLower, if_neg hout]

/-- For a plain character the rules of the standard admit its own two forms only. -/
theorem lowerChar_eq_iff (hd : isPlain d = true) : lowerChar c = d ↔ c.toLower = d := by
  obtain ⟨hascii, -, -, hk⟩ := isPlain_iff.mp hd
  rcases lowerChar_cases c with hplain | hkelvin | ⟨hc, hlower⟩
  · rw [hplain]
  · have hc : c = Char.ofNat 0x212a := Char.toNat_inj.mp hkelvin
    have hform : lowerChar c = 'k' := by
      rw [hc]
      decide
    have hself : c.toLower = c := toLower_of_not_ascii (by omega)
    rw [hform, hself]
    refine iff_of_false (fun h => hk h.symm) ?_
    rintro rfl
    omega
  · rw [toLower_of_not_ascii hc]
    refine iff_of_false ?_ ?_
    · rintro rfl
      omega
    · rintro rfl
      omega

/-- What a character begins with in lower case: its own form, unless it is one of the two with special
rules, which give an `i` or something outside the ASCII range. -/
theorem lowerAfter_cons (before : List Char) (c : Char) (cs : List Char) :
    lowerAfter before (c :: cs) = lowerChar c :: lowerAfter (c :: before) cs ∨
      128 ≤ c.toNat ∧ ∃ d ds, lowerAfter before (c :: cs) = d :: ds ∧ (d = 'i' ∨ 128 ≤ d.toNat) := by
  rw [lowerAfter]
  split
  · next hdot => exact .inr ⟨by omega, 'i', _, rfl, .inl rfl⟩
  · split
    · next hsigma =>
      refine .inr ⟨by omega, _, _, rfl, .inr ?_⟩
      split
      · decide
      · decide
    · exact .inl rfl

/-- By induction on the characters, for every text before them: the rule of the capital sigma looks
back at it, but what a plain text is the lower-case form of does not depend on it. -/
theorem lowerAfter_eq_iff (ht : ∀ d ∈ t, isPlain d = true) :
    lowerAfter before cs = t ↔ cs.map Char.toLower = t := by
  induction cs generalizing before t with
  | nil => rfl
  | cons c cs ih =>
    rw [List.map_cons]
    cases t with
    | nil =>
      refine iff_of_false ?_ (List.cons_ne_nil _ _)
      rcases lowerAfter_cons before c cs with h | ⟨-, d, ds, h, -⟩
      · rw [h]
        exact List.cons_ne_nil _ _
      · rw [h]
        exact List.cons_ne_nil _ _
    | cons e t =>
      obtain ⟨he, ht'⟩ := List.forall_mem_cons.mp ht
      rcases lowerAfter_cons before c cs with h | ⟨hc, d, ds, h, hd⟩
      · rw [h, List.cons.injEq, List.cons.injEq, lowerChar_eq_iff he, ih ht']
      · -- neither side can begin with a plain character
        obtain ⟨hascii, -, hi, -⟩ := isPlain_iff.mp he
        rw [h, List.cons.injEq, List.cons.injEq, toLower_of_not_ascii hc]
        refine iff_of_false ?_ ?_
        · rintro ⟨rfl, -⟩
          rcases hd with hd | hd
          · exact hi hd
          · omega
        · rintro ⟨rfl, -⟩
          omega

/-- The texts with a plain lower-case form differ from it in the case of A to Z alone. -/
theorem lowerCase_eq_iff (hw : ∀ d ∈ w.toList, isPlain d = true) :
    lowerCase v = w ↔ EqUpToCase v w := by
  rw [← lowerCaseAscii_eq_iff hw, lowerCase, lowerCaseAscii, ← String.toList_inj, ← String.toList_inj,
    String.toList_ofList, String.toList_ofList]
  exact lowerAfter_eq_iff hw

/-- A word with a `k` has one spelling more. -/
example : lowerCase "\u212a" = "k" ∧ lowerCaseAscii "\u212a" ≠ "k" := by
  decide

end Text

namespace Settings

open Text

/-- The words of the settings are plain. -/
theorem isPlain_of_mem_word : ∀ w ∈ ["older", "older-than-cursor", "not-after", "not-after-cursor",
    "true", "1", "yes"], ∀ d ∈ w.toList, isPlain d = true := by
  simp only [← List.all_eq_true]
  decide

variable {v w : String}

theorem isNamed_iff {p : StalePolicy} :
    p.IsNamed v ↔ EqUpToCase v p.name ∨ EqUpToCase v p.longName := by
  have hname : ∀ d ∈ p.name.toList, isPlain d = true := by
    cases p <;> exact isPlain_of_mem_word _ (by decide)
  have hlong : ∀ d ∈ p.longName.toList, isPlain d = true := by
    cases p <;> exact isPlain_of_mem_word _ (by decide)
  rw [StalePolicy.IsNamed, lowerCase_eq_iff hname, lowerCase_eq_iff hlong]

theorem exportFlag_iff :
    exportFlag v = true ↔ EqUpToCase (trim v) "true" ∨ EqUpToCase (trim v) "1" := by
  have htrue := isPlain_of_mem_word "true" (by decide)
  have hone := isPlain_of_mem_word "1" (by decide)
  rw [← lowerCaseAscii_eq_iff htrue, ← lowerCaseAscii_eq_iff hone]
  simp [exportFlag]

theorem flag_iff : flag v = true ↔
    EqUpToCase (trim v) "true" ∨ EqUpToCase (trim v) "1" ∨ EqUpToCase (trim v) "yes" := by
  have htrue := isPlain_of_mem_word "true" (by decide)
  have hone := isPlain_of_mem_word "1" (by decide)
  have hyes := isPlain_of_mem_word "yes" (by decide)
  rw [← lowerCase_eq_iff htrue, ← lowerCase_eq_iff hone, ← lowerCase_eq_iff hyes]
  simp [flag]

/-- Though the stale policy and the switches of the service are read with the case rules of the
character standard, a text names a policy just if it is one of the names up to the case of the letters
A to Z; and a switch of the service is on just if the one of the span export would be, whose text is
folded by these letters alone, or if the text says `yes`. -/
theorem no_foreign_spelling (v : String) :
    (StalePolicy.ofText v = .ok .older ↔
        EqUpToCase v "older" ∨ EqUpToCase v "older-than-cursor") ∧
      (StalePolicy.ofText v = .ok .notAfter ↔
        EqUpToCase v "not-after" ∨ EqUpToCase v "not-after-cursor") ∧
      ((∃ p, StalePolicy.ofText v = .ok p) ↔
        ∃ w ∈ ["older", "older-than-cursor", "not-after", "not-after-cursor"], EqUpToCase v w) ∧
      (flag v = true ↔ exportFlag v = true ∨ EqUpToCase (trim v) "yes") := by
  have holder : StalePolicy.ofText v = .ok .older ↔
      EqUpToCase v "older" ∨ EqUpToCase v "older-than-cursor" :=
    StalePolicy.ofText_eq_ok_iff.trans isNamed_iff
  have hnotAfter : StalePolicy.ofText v = .ok .notAfter ↔
      EqUpToCase v "not-after" ∨ EqUpToCase v "not-after-cursor" :=
    StalePolicy.ofText_eq_ok_iff.trans isNamed_iff
  refine ⟨holder, hnotAfter, ?_, ?_⟩
  · constructor
    · rintro ⟨_ | _, hp⟩
      · rcases holder.mp hp with h | h
        · exact ⟨_, by decide, h⟩
        · exact ⟨_, by decide, h⟩
      · rcases hnotAfter.mp hp with h | h
        · exact ⟨_, by decide, h⟩
        · exact ⟨_, by decide, h⟩
    · rintro ⟨w, hw, h⟩
      simp only [List.mem_cons, List.not_mem_nil, or_false] at hw
      rcases hw with rfl | rfl | rfl | rfl
      · exact ⟨_, holder.mpr (.inl h)⟩
      · exact ⟨_, holder.mpr (.inr h)⟩
      · exact ⟨_, hnotAfter.mpr (.inl h)⟩
      · exact ⟨_, hnotAfter.mpr (.inr h)⟩
  · rw [flag_iff, exportFlag_iff, or_assoc]

end Settings

end Multicast
