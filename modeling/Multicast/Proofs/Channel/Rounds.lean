import Multicast.Proofs.Channel.Flow

/-! Rounds of pings as a channel has them. When a round goes on, its first ping that can does so; if
that one crashes, all others are given up. A round has one ping at most to a subscriber. -/

namespace Multicast

open Outlet (Flow GivesUp)

/-- The write to a subscriber that some direct deliveries have under way. -/
def directWrite? (ds : List Direct) (s : SessionId) : Option Delivery := (postsOf ds s).write?

variable {r u v : Registry} {s : SessionId} {p : Party} {e : Direct} {c : Channel (Batch Nat)}
  {ds es : List Direct} {ps before after : List PingPoint} {w : Option Delivery}

/-! ### Where the party of some direct deliveries stands -/

theorem postsOf_eq_find? (ds : List Direct) (s : SessionId) :
    postsOf ds s = ((ds.find? (·.session == s)).map Direct.post).getD .away := by
  unfold postsOf
  induction ds with
  | nil => rfl
  | cons e rest ih =>
    rw [overlay, List.find?_cons]
    by_cases hs : e.session = s
    · subst hs
      simp
    · have hne : (e.session == s) = false := beq_false_of_ne hs
      rw [Function.update_of_ne (Ne.symm hs), ih, hne]

theorem postsOf_middle (hs : e.session ∉ ds.map Direct.session) :
    postsOf (ds ++ e :: es) e.session = e.post := by
  have hnone : ds.find? (·.session == e.session) = none := by
    refine List.find?_eq_none.mpr fun d hd heq => hs ?_
    rw [← eq_of_beq heq]
    exact List.mem_map_of_mem hd
  rw [postsOf_eq_find?, List.find?_append, hnone, List.find?_cons, beq_self_eq_true]
  rfl

theorem postsOf_middle_of_ne (hs : e.session ≠ s) :
    postsOf (ds ++ e :: es) s = postsOf (ds ++ es) s := by
  have hne : (e.session == s) = false := beq_false_of_ne hs
  simp only [postsOf_eq_find?, List.find?_append, List.find?_cons, hne]

theorem postsOf_of_not_mem {ds : List Direct} (hs : s ∉ ds.map Direct.session) :
    postsOf ds s = .away := overlay_of_not_mem hs

/-! ### The course of a round -/

namespace Registry

theorem pingDirects_append (ps qs : List PingPoint) :
    pingDirects (ps ++ qs) = pingDirects ps ++ pingDirects qs := List.filterMap_append

theorem abandonPings_append (ps qs : List PingPoint) :
    r.abandonPings p (ps ++ qs) = (r.abandonPings p ps).abandonPings p qs := by
  induction ps generalizing r with
  | nil => rfl
  | cons point rest ih =>
    cases point with
    | waiting e => exact ih
    | answered _ => exact ih

/-- A round in which no ping can go on stays as it is. -/
theorem stepPings_of_waiting (hps : ∀ e ∈ pingDirects ps, r.directReady p e = false) :
    r.stepPings p ps = (r, some ps) := by
  induction ps with
  | nil => rfl
  | cons point rest ih =>
    cases point with
    | answered b =>
      rw [stepPings, ih hps]
      rfl
    | waiting e =>
      have hwaits : r.directReady p e = false := hps e List.mem_cons_self
      rw [stepPings, hwaits, ih fun d hd => hps d (List.mem_cons_of_mem e hd)]
      rfl

/-- What a round comes to when one of its pings has gone on; if that one has crashed, all others are
given up. -/
def roundAfter (p : Party) (before after : List PingPoint) :
    Registry × Progress Direct Bool → Registry × Option (List PingPoint)
  | (r, .running e) => (r, some (before ++ .waiting e :: after))
  | (r, .done b) => (r, some (before ++ .answered b :: after))
  | (r, .crashed) => (r.abandonPings p (after ++ before.reverse), none)

/-- The first ping that can goes on. -/
theorem stepPings_of_ready (hbefore : ∀ d ∈ pingDirects before, r.directReady p d = false)
    (he : r.directReady p e = true) :
    r.stepPings p (before ++ .waiting e :: after) =
      roundAfter p before after (r.directStep p e) := by
  induction before with
  | nil =>
    rw [List.nil_append, stepPings, he]
    rcases r.directStep p e with ⟨v, progress⟩
    cases progress with
    | running _ | done _ => rfl
    | crashed => simp [roundAfter]
  | cons point rest ih =>
    cases point with
    | answered b =>
      rw [List.cons_append, stepPings, ih hbefore]
      rcases r.directStep p e with ⟨v, progress⟩
      cases progress with
      | running _ | done _ => rfl
      | crashed => simp [roundAfter, abandonPings_append, abandonPings]
    | waiting d =>
      have hwaits : r.directReady p d = false := hbefore d List.mem_cons_self
      rw [List.cons_append, stepPings, hwaits,
        ih fun d' hd' => hbefore d' (List.mem_cons_of_mem d hd')]
      rcases r.directStep p e with ⟨v, progress⟩
      cases progress with
      | running _ | done _ => rfl
      | crashed => simp [roundAfter, abandonPings_append, abandonPings]

theorem exists_first_ready (r : Registry) (p : Party) (ps : List PingPoint) :
    (∀ e ∈ pingDirects ps, r.directReady p e = false) ∨
      ∃ before e after, ps = before ++ .waiting e :: after ∧
        (∀ d ∈ pingDirects before, r.directReady p d = false) ∧ r.directReady p e = true := by
  induction ps with
  | nil => exact .inl nofun
  | cons point rest ih =>
    cases point with
    | answered b =>
      rcases ih with hnone | ⟨before, e, after, rfl, hbefore, he⟩
      · exact .inl hnone
      · exact .inr ⟨.answered b :: before, e, after, rfl, hbefore, he⟩
    | waiting d =>
      cases hd : r.directReady p d with
      | true => exact .inr ⟨[], d, rest, rfl, nofun, hd⟩
      | false =>
        rcases ih with hnone | ⟨before, e, after, rfl, hbefore, he⟩
        · refine .inl fun e he => ?_
          rcases List.mem_cons.mp he with rfl | he
          · exact hd
          · exact hnone e he
        · refine .inr ⟨.waiting d :: before, e, after, rfl, fun d' hd' => ?_, he⟩
          rcases List.mem_cons.mp hd' with rfl | hd'
          · exact hd
          · exact hbefore d' hd'

theorem outlet_abandonPings_of_not_mem
    (hs : s ∉ (pingDirects ps).map Direct.session) :
    (r.abandonPings p ps).outlet s = r.outlet s := by
  induction ps generalizing r with
  | nil => rfl
  | cons point rest ih =>
    cases point with
    | answered _ => exact ih hs
    | waiting d =>
      obtain ⟨hne, hrest⟩ := not_or.mp (mt List.mem_cons.mpr hs)
      exact (ih hrest).trans (outlet_abandon_of_ne (Ne.symm hne))

theorem outlet_abandon (hc : (r.outlet e.session).sink = some (.channel c)) :
    (r.abandon p e).outlet e.session =
      { r.outlet e.session with sink := some (.channel (c.giveUp p)) } := by
  obtain ⟨x, hx, hsink⟩ := exists_of_sink hc
  have hgiven := outlet_of_session?
    (session?_update hx fun x => { x with sink := x.sink.giveUp p })
  rw [abandon, outlet_leave, hgiven, outlet_of_session? hx, hsink]
  rfl

/-- Of the pings that are given up, one at most is to the subscriber. -/
theorem givesUp_abandonPings
    (hc : (r.outlet s).sink = some (.channel c)) (hs : s ∈ (pingDirects ps).map Direct.session)
    (hn : ((pingDirects ps).map Direct.session).Nodup) (w : Option Delivery) :
    GivesUp p (r.outlet s) w ((r.abandonPings p ps).outlet s) := by
  induction ps generalizing r with
  | nil => cases hs
  | cons point rest ih =>
    cases point with
    | answered _ => exact ih hc hs hn
    | waiting d =>
      obtain ⟨hnew, hrest⟩ := List.nodup_cons.mp hn
      rw [abandonPings]
      by_cases hd : d.session = s
      · subst hd
        rw [outlet_abandonPings_of_not_mem hnew, outlet_abandon hc]
        exact .giveUp w hc
      · have hmem : s ∈ (pingDirects rest).map Direct.session :=
          (List.mem_cons.mp hs).resolve_left (Ne.symm hd)
        have hsame := outlet_abandon_of_ne (r := r) (p := p) hd
        rw [← hsame] at hc ⊢
        exact ih hc hmem hrest

/-- What becomes of a round, as the channel of a subscriber has it. -/
def RoundFlows (p : Party) (s : SessionId) (r : Registry) (w : Option Delivery) :
    Registry × Option (List PingPoint) → Prop
  | (v, some ps) =>
    Flow r.Processed p (r.outlet s) w (v.outlet s) (directWrite? (pingDirects ps) s)
  | (v, none) => GivesUp p (r.outlet s) w (v.outlet s)

theorem pingDirects_dropped : pingDirects (after ++ before.reverse) =
    pingDirects after ++ (pingDirects before).reverse := by
  rw [pingDirects_append, pingDirects, pingDirects, pingDirects, List.filterMap_reverse]

theorem pingDirects_answered (b : Bool) : pingDirects (before ++ .answered b :: after) =
    pingDirects before ++ pingDirects after := pingDirects_append ..

/-- The ping to the subscriber goes on; the others do not concern it. -/
theorem roundFlows_of_session (hc : (r.outlet e.session).sink = some (.channel c))
    (hbefore : e.session ∉ (pingDirects before).map Direct.session)
    (hafter : e.session ∉ (pingDirects after).map Direct.session)
    (hsending : Sending e.post.write?) (he : r.directReady p e = true) :
    RoundFlows p e.session r e.post.write? (roundAfter p before after (r.directStep p e)) := by
  obtain ⟨x, hx, hxc⟩ := exists_of_sink hc
  have hflow := flow_directStep hx hxc hsending he
  have hcrashed := crashed_directStep (p := p) hx hxc hsending
  have hsession (e' : Direct) : (r.directStep p e).2 = .running e' → e'.session = e.session :=
    session_of_directStep
  obtain ⟨v, progress, hstep⟩ : ∃ v progress, r.directStep p e = (v, progress) := ⟨_, _, rfl⟩
  rw [hstep] at hflow hcrashed hsession ⊢
  cases progress with
  | running e' =>
    have hsame : e'.session = e.session := hsession e' rfl
    rw [roundAfter, RoundFlows, pingDirects_append, pingDirects_waiting, ← hsame, directWrite?,
      postsOf_middle (hsame ▸ hbefore), hsame]
    exact hflow
  | done b =>
    rw [roundAfter, RoundFlows, pingDirects_answered, directWrite?,
      postsOf_of_not_mem (by simp [hbefore, hafter])]
    exact hflow
  | crashed =>
    obtain ⟨hidle, hsame⟩ := hcrashed rfl
    rw [roundAfter, RoundFlows, hidle, outlet_abandonPings_of_not_mem, hsame]
    · exact .idle
    · rw [pingDirects_dropped]
      simp [hbefore, hafter]

/-- A ping to another subscriber goes on, and if it crashes, the one to the subscriber is given
up. -/
theorem roundFlows_of_ne (hc : (r.outlet s).sink = some (.channel c)) (hes : e.session ≠ s)
    (hn : ((pingDirects before ++ pingDirects after).map Direct.session).Nodup) :
    RoundFlows p s r (directWrite? (pingDirects before ++ pingDirects after) s)
      (roundAfter p before after (r.directStep p e)) := by
  have hsame := outlet_directStep_of_ne (r := r) (p := p) hes
  have hsession (e' : Direct) : (r.directStep p e).2 = .running e' → e'.session = e.session :=
    session_of_directStep
  obtain ⟨v, progress, hstep⟩ : ∃ v progress, r.directStep p e = (v, progress) := ⟨_, _, rfl⟩
  rw [hstep] at hsame hsession ⊢
  cases progress with
  | running e' =>
    have hes' : e'.session ≠ s := hsession e' rfl ▸ hes
    rw [roundAfter, RoundFlows, pingDirects_append, pingDirects_waiting, directWrite?, directWrite?,
      postsOf_middle_of_ne hes', hsame]
    exact .still _
  | done b =>
    rw [roundAfter, RoundFlows, pingDirects_answered, hsame]
    exact .still _
  | crashed =>
    have hperm : (pingDirects (after ++ before.reverse)).Perm
        (pingDirects before ++ pingDirects after) := by
      rw [pingDirects_dropped]
      exact ((List.reverse_perm _).append_left _).trans List.perm_append_comm
    have hnodup := (hperm.map Direct.session).nodup_iff.mpr hn
    rw [roundAfter, RoundFlows]
    rw [← hsame] at hc ⊢
    by_cases hs : s ∈ (pingDirects (after ++ before.reverse)).map Direct.session
    · exact givesUp_abandonPings hc hs hnodup _
    · rw [outlet_abandonPings_of_not_mem hs, directWrite?,
        postsOf_of_not_mem fun hmem => hs ((hperm.map _).mem_iff.mpr hmem)]
      exact .idle

/-- One ping of a round goes on, or none can. -/
theorem roundFlows_stepPings (hc : (r.outlet s).sink = some (.channel c))
    (hn : ((pingDirects ps).map Direct.session).Nodup)
    (hsending : Sending (directWrite? (pingDirects ps) s)) :
    RoundFlows p s r (directWrite? (pingDirects ps) s) (r.stepPings p ps) := by
  rcases exists_first_ready r p ps with hwaits | ⟨before, e, after, rfl, hbefore, he⟩
  · rw [stepPings_of_waiting hwaits]
    exact .still _
  · rw [stepPings_of_ready hbefore he]
    rw [pingDirects_append, pingDirects_waiting] at hn hsending ⊢
    rw [List.map_append, List.map_cons, List.nodup_middle, List.nodup_cons, List.mem_append,
      not_or] at hn
    obtain ⟨⟨hbeforeNot, hafterNot⟩, hothers⟩ := hn
    by_cases hes : e.session = s
    · subst hes
      rw [directWrite?, postsOf_middle hbeforeNot] at hsending ⊢
      exact roundFlows_of_session hc hbeforeNot hafterNot hsending he
    · rw [directWrite?, postsOf_middle_of_ne hes]
      rw [← List.map_append] at hothers
      exact roundFlows_of_ne hc hes hothers

end Registry

end Multicast
