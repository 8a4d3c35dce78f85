import Mathlib.Data.List.Nodup
import Multicast.Gate

/-! The line at a gate. Where parties ask for the gate and give it back one at a time, the line
tells who is at the gate; and whoever got it keeps it until he gives it back. -/

namespace Multicast

namespace Gate

variable {g : Gate} {here here' busy busy' : Party → Prop} {p q : Party}

theorem line_join_of_nil (h : g.line = []) : (g.join p).line = [p] := by
  rw [line_join, h, List.nil_append]

theorem line_leave_of_alone (h : g.line = [p]) : (g.leave p).line = [] := by
  rw [line_leave, h, List.erase_cons_head]

/-- Whoever gets the gate first keeps it while others come. -/
theorem holds_join_of_holds (h : g.holds q = true) : (g.join p).holds q = true := by
  rw [holds_iff, line_join, List.head?_append, holds_iff.mp h, Option.some_or]

/-- The head of the line stays the head when another one leaves. -/
theorem holds_leave_of_ne (h : g.holds q = true) (hne : q ≠ p) : (g.leave p).holds q = true := by
  obtain ⟨rest, hline⟩ := List.head?_eq_some_iff.mp (holds_iff.mp h)
  rw [holds_iff, line_leave, hline, List.erase_cons_tail (by simpa using hne)]
  rfl

/-- Whoever joins the line stands before nobody. -/
theorem sublist_of_join {r : Party} (h : [p, q].Sublist (g.join r).line) (hne : q ≠ r) :
    [p, q].Sublist g.line := by
  rw [line_join] at h
  obtain ⟨front, rear, hsplit, hfront, hrear⟩ := List.sublist_append_iff.mp h
  rcases List.sublist_singleton.mp hrear with rfl | rfl
  · rw [List.append_nil] at hsplit
    rwa [hsplit]
  · have hlast := congrArg List.getLast? hsplit
    rw [List.getLast?_append] at hlast
    exact absurd (by simpa using hlast) hne

/-- The line names those who are here, nobody twice, and whoever is busy is its head. -/
structure Names (g : Gate) (here busy : Party → Prop) : Prop where
  nodup : g.line.Nodup
  mem : ∀ p, p ∈ g.line ↔ here p
  holds : ∀ p, busy p → g.holds p = true

namespace Names

/-- A party that stays where it is may get busy if it has the gate. -/
theorem stay (h : g.Names here busy)
    (hrest : ∀ q, q ≠ p → (here' q ↔ here q) ∧ (busy' q → busy q)) (hp : here' p ↔ here p)
    (hb : busy' p → g.holds p = true) : g.Names here' busy' where
  nodup := h.nodup
  mem q := by
    rw [h.mem q]
    by_cases hq : q = p
    · exact hq ▸ hp.symm
    · exact (hrest q hq).1.symm
  holds q hbusy := by
    by_cases hq : q = p
    · subst hq
      exact hb hbusy
    · exact h.holds q ((hrest q hq).2 hbusy)

/-- A party that comes goes to the end of the line. -/
theorem join (h : g.Names here busy)
    (hrest : ∀ q, q ≠ p → (here' q ↔ here q) ∧ (busy' q → busy q)) (hout : ¬ here p)
    (hin : here' p) (hb : ¬ busy' p) : (g.join p).Names here' busy' where
  nodup := by
    -- who is not here does not stand in the line, and cannot come to stand in it twice
    have hnew : p ∉ g.line := fun hmem => hout ((h.mem p).mp hmem)
    rw [line_join]
    exact h.nodup.append (List.nodup_singleton p) (List.disjoint_singleton.mpr hnew)
  mem q := by
    rw [line_join, List.mem_append, List.mem_singleton, h.mem q]
    by_cases hq : q = p
    · subst hq
      exact iff_of_true (.inr rfl) hin
    · rw [or_iff_left hq]
      exact (hrest q hq).1.symm
  holds q hbusy := by
    by_cases hq : q = p
    · subst hq
      exact absurd hbusy hb
    · exact holds_join_of_holds (h.holds q ((hrest q hq).2 hbusy))

/-- A party that goes gives the gate back, or gives up waiting for it. -/
theorem leave (h : g.Names here busy)
    (hrest : ∀ q, q ≠ p → (here' q ↔ here q) ∧ (busy' q → busy q)) (hout : ¬ here' p)
    (hb : ¬ busy' p) : (g.leave p).Names here' busy' where
  nodup := h.nodup.erase p
  mem q := by
    rw [line_leave, h.nodup.mem_erase_iff, h.mem q]
    by_cases hq : q = p
    · subst hq
      exact iff_of_false (fun hand => hand.1 rfl) hout
    · rw [and_iff_right hq]
      exact (hrest q hq).1.symm
  holds q hbusy := by
    by_cases hq : q = p
    · subst hq
      exact absurd hbusy hb
    · exact holds_leave_of_ne (h.holds q ((hrest q hq).2 hbusy)) hq

/-- At most one party is busy at a time. -/
theorem eq_of_holds (h : g.Names here busy) (hp : busy p) (hq : g.holds q = true) : p = q := by
  have hheads := (holds_iff.mp (h.holds p hp)).symm.trans (holds_iff.mp hq)
  exact Option.some.inj hheads

end Names

end Gate

end Multicast
