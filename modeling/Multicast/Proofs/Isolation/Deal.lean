import Multicast.Proofs.Isolation.Visit

/-! The calls of one name in two registries. They answer to each other in the order in which they
were made; they stand as they would, and go on as they would. -/

namespace Multicast

/-- Parties that answer to each other: both are workers, or both are the calls at one place of two
lists. -/
inductive Matched (is is' : List Nat) : Party → Party → Prop
  | worker : Matched is is' .worker .worker
  | call {k i i' : Nat} (h : is[k]? = some i) (h' : is'[k]? = some i') :
    Matched is is' (.call i) (.call i')

/-- Calls that deal with the subscribers `s` and `s'` and stand as they would. -/
inductive Call.Twin (s s' : SessionId) : Call → Call → Prop
  | sending (b : Batch Nat) (kind : DeliveryKind) (run : Option Delivery) :
    Twin s s' (.sending ⟨s, b, kind, run⟩) (.sending ⟨s', b, kind, run⟩)
  | unsubscribing (f : Farewell) : Twin s s' (.unsubscribing s f) (.unsubscribing s' f)
  | returned (a : Except RegistryError Answer) : Twin s s' (.returned a) (.returned a)
  | crashed : Twin s s' .crashed .crashed

/-- What belongs to a name in one registry stands as what belongs to it in another one does. -/
structure Standing (request : Subscription) (e e' : Entry) (r r' : Registry) : Prop where
  alike : Alike request (Matched e.calls e'.calls) e.session e'.session r r'
  length : e'.calls.length = e.calls.length
  nodup : e.calls.Nodup ∧ e'.calls.Nodup
  calls : ∀ i i', Matched e.calls e'.calls (.call i) (.call i') →
    ∃ c c', r.calls[i]? = some c ∧ r'.calls[i']? = some c' ∧ c.Twin e.session e'.session c'

variable {request : Subscription} {P : Party → Party → Prop} {s s' : SessionId} {i i' n n' : Nat}
  {is is' : List Nat} {c c' : Call} {r r' u u' v v' : Registry} {e e' : Entry}

/-! ### Parties that answer to each other -/

theorem biUnique_matched (h : is.Nodup) (h' : is'.Nodup) : Relator.BiUnique (Matched is is') := by
  constructor
  · intro p q p' hp hq
    cases hp with
    | worker =>
      cases hq
      rfl
    | call hi hi' =>
      cases hq with
      | call hj hj' =>
        have hlen := (List.getElem?_eq_some_iff.mp hi').1
        obtain rfl := (List.getElem?_inj hlen h').mp (hi'.trans hj'.symm)
        rw [Option.some.inj (hi.symm.trans hj)]
  · intro p p' q' hp hq
    cases hp with
    | worker =>
      cases hq
      rfl
    | call hi hi' =>
      cases hq with
      | call hj hj' =>
        have hlen := (List.getElem?_eq_some_iff.mp hi).1
        obtain rfl := (List.getElem?_inj hlen h).mp (hi.trans hj.symm)
        rw [Option.some.inj (hi'.symm.trans hj')]

theorem Matched.mem (h : Matched is is' (.call i) (.call i')) : i ∈ is ∧ i' ∈ is' := by
  cases h with
  | call hk hk' => exact ⟨List.mem_of_getElem? hk, List.mem_of_getElem? hk'⟩

/-- Those who answer to each other still do when calls are added. -/
theorem matched_append (n n' : Nat) {p p' : Party} (h : Matched is is' p p') :
    Matched (is ++ [n]) (is' ++ [n']) p p' := by
  cases h with
  | worker => exact .worker
  | call hk hk' =>
    have hlt := (List.getElem?_eq_some_iff.mp hk).1
    have hlt' := (List.getElem?_eq_some_iff.mp hk').1
    exact .call ((List.getElem?_append_left hlt).trans hk)
      ((List.getElem?_append_left hlt').trans hk')

theorem matched_last (hlen : is'.length = is.length) :
    Matched (is ++ [n]) (is' ++ [n']) (.call n) (.call n') :=
  .call List.getElem?_concat_length (hlen ▸ List.getElem?_concat_length)

theorem matched_append_cases (hlen : is'.length = is.length)
    (h : Matched (is ++ [n]) (is' ++ [n']) (.call i) (.call i')) :
    Matched is is' (.call i) (.call i') ∨ i = n ∧ i' = n' := by
  cases h with
  | @call k _ _ hk hk' =>
    rcases Nat.lt_trichotomy k is.length with hlt | rfl | hgt
    · rw [List.getElem?_append_left hlt] at hk
      rw [List.getElem?_append_left (hlen ▸ hlt)] at hk'
      exact .inl (.call hk hk')
    · rw [List.getElem?_concat_length] at hk
      rw [← hlen, List.getElem?_concat_length] at hk'
      exact .inr ⟨(Option.some.inj hk).symm, (Option.some.inj hk').symm⟩
    · have hout : (is ++ [n])[k]? = none := by
        rw [List.getElem?_eq_none_iff, List.length_append, List.length_singleton]
        exact hgt
      rw [hout] at hk
      cases hk

/-! ### Calls that go on -/

namespace Registry

/-- A call goes on in two registries as it would: from `r` and `r'` to `v` and `v'`. -/
def Deals (request : Subscription) (P : Party → Party → Prop) (s s' : SessionId) (i i' : Nat)
    (r r' v v' : Registry) : Prop :=
  ∃ u u' c c', Within s r u ∧ Within s' r' u' ∧ v = u.setCall i c ∧ v' = u'.setCall i' c' ∧
    Alike request P s s' u u' ∧ c.Twin s s' c'

theorem alike_callReady (hP : Relator.BiUnique P) (h : Alike request P s s' r r')
    (hp : P (.call i) (.call i')) (hc : c.Twin s s' c') :
    r'.callReady i' c' = r.callReady i c := by
  cases hc with
  | sending b kind run => exact alike_directReady hP h hp b kind run
  | unsubscribing f => exact alike_farewellReady h f
  | returned a => rfl
  | crashed => rfl

theorem deals_sent (h : Within s r u) (h' : Within s' r' u') (ha : Alike request P s s' u u')
    (b : Batch Nat) (kind : DeliveryKind) (progress : Progress Delivery Bool) :
    Deals request P s s' i i' r r'
      (sent i (u, progress.mapState fun d => ⟨s, b, kind, some d⟩))
      (sent i' (u', progress.mapState fun d => ⟨s', b, kind, some d⟩)) := by
  cases progress with
  | running d => exact ⟨u, u', _, _, h, h', rfl, rfl, ha, .sending b kind (some d)⟩
  | crashed => exact ⟨u, u', _, _, h, h', rfl, rfl, ha, .crashed⟩
  | done reached =>
    exact ⟨_, _, _, _, h.count _, h'.count _, rfl, rfl, alike_count ha _ _, .returned _⟩

theorem deals_unsubscribeProgress {o o' : Registry × Progress Farewell (Except HookError Unit)}
    (h : Within s r o.1) (h' : Within s' r' o'.1) (ha : AlikeAfter request P s s' o o') :
    Deals request P s s' i i' r r' (unsubscribeProgress i s o) (unsubscribeProgress i' s' o') := by
  obtain ⟨u, progress⟩ := o
  obtain ⟨u', progress'⟩ := o'
  obtain ⟨halike, hsame⟩ := ha
  obtain rfl : progress' = progress := hsame
  cases progress' with
  | running f => exact ⟨u, u', _, _, h, h', rfl, rfl, halike, .unsubscribing f⟩
  | crashed => exact ⟨u, u', _, _, h, h', rfl, rfl, halike, .crashed⟩
  | done result =>
    cases result with
    | ok _ =>
      exact ⟨_, _, _, _, h.note fun _ _ => rfl, h'.note fun _ _ => rfl, rfl, rfl,
        alike_note halike rfl, .returned _⟩
    | error e =>
      exact ⟨_, _, _, _, h.note fun _ _ => rfl, h'.note fun _ _ => rfl, rfl, rfl,
        alike_note halike rfl, .returned _⟩

/-- A call that need not wait goes on. -/
theorem deals_callStep (hP : Relator.BiUnique P) (h : Alike request P s s' r r')
    (hp : P (.call i) (.call i')) (hc : c.Twin s s' c') (hready : r.callReady i c = true) :
    Deals request P s s' i i' r r' (r.callStep i c) (r'.callStep i' c') := by
  cases hc with
  | sending b kind run =>
    have hwithin := within_directStep (r := r) (p := .call i) ⟨s, b, kind, run⟩
    have hwithin' := within_directStep (r := r') (p := .call i') ⟨s', b, kind, run⟩
    obtain ⟨halike, progress, hres, hres'⟩ := alike_directStep hP h hp b kind run
    have hdeals : Deals request P s s' i i' r r' _ _ :=
      deals_sent hwithin hwithin' halike b kind progress
    rw [← hres, ← hres'] at hdeals
    exact hdeals
  | unsubscribing f =>
    exact deals_unsubscribeProgress (within_farewellStep f) (within_farewellStep f)
      (alike_farewellStep h f)
  | returned a => cases hready
  | crashed => cases hready

/-- A call to send is made in two registries, as number `n` and `n'`. -/
theorem deals_sendHistorical (h : Alike request P s s' r r')
    (hp : P (.call r.calls.length) (.call r'.calls.length)) (b : Batch Nat) :
    Deals request P s s' r.calls.length r'.calls.length (r.addCall .crashed) (r'.addCall .crashed)
      (r.sendHistorical s b) (r'.sendHistorical s' b) := by
  have hadd : Alike request P s s' (r.addCall .crashed) (r'.addCall .crashed) := { h with }
  obtain ⟨halike, hsame⟩ := alike_askGate hadd hp
  have hwithin := within_askGate (r := r.addCall .crashed) (t := s) (p := .call r.calls.length)
  have hwithin' := within_askGate (r := r'.addCall .crashed) (t := s') (p := .call r'.calls.length)
  unfold sendHistorical startCall
  dsimp only
  rw [alike_isCancelled hadd]
  split
  · exact ⟨_, _, _, _, .refl _, .refl _, rfl, rfl, hadd, .returned _⟩
  · rcases hask : (r.addCall .crashed).askGate s (.call r.calls.length) with ⟨u, granted⟩
    rcases hask' : (r'.addCall .crashed).askGate s' (.call r'.calls.length) with ⟨u', granted'⟩
    rw [hask] at halike hwithin hsame
    rw [hask'] at halike hwithin' hsame
    obtain rfl : granted' = granted := hsame
    cases granted' with
    | true => exact ⟨u, u', _, _, hwithin, hwithin', rfl, rfl, halike, .sending b .historical none⟩
    | false =>
      exact deals_sent hwithin hwithin' halike b .historical (.done false)

/-- A call to remove the subscriber is made in two registries. -/
theorem deals_unsubscribe (h : Alike request P s s' r r') :
    Deals request P s s' r.calls.length r'.calls.length (r.addCall .crashed) (r'.addCall .crashed)
      (r.unsubscribe s) (r'.unsubscribe s') := by
  have hadd : Alike request P s s' (r.addCall .crashed) (r'.addCall .crashed) := { h with }
  obtain ⟨halike, hsame⟩ := alike_detach hadd .unsubscribed
  have hwithin := within_detach (r := r.addCall .crashed) (t := s) .unsubscribed
  have hwithin' := within_detach (r := r'.addCall .crashed) (t := s') .unsubscribed
  unfold unsubscribe startCall
  dsimp only
  rcases hres : (r.addCall .crashed).detach s .unsubscribed with ⟨u, found⟩
  rcases hres' : (r'.addCall .crashed).detach s' .unsubscribed with ⟨u', found'⟩
  rw [hres] at halike hwithin hsame
  rw [hres'] at halike hwithin' hsame
  obtain rfl : found' = found := hsame
  cases found' with
  | false => exact ⟨u, u', _, _, hwithin, hwithin', rfl, rfl, halike, .returned _⟩
  | true =>
    exact deals_unsubscribeProgress (hwithin.trans (within_farewellStep .fresh))
      (hwithin'.trans (within_farewellStep .fresh)) (alike_farewellStep halike .fresh)

end Registry

/-! ### Deeds -/

namespace Standing

open Registry

theorem biUnique (h : Standing request e e' r r') :
    Relator.BiUnique (Matched e.calls e'.calls) :=
  biUnique_matched h.nodup.1 h.nodup.2

/-- The calls that were made for a name are there. -/
theorem lt_length (h : Standing request e e' r r') :
    (∀ i ∈ e.calls, i < r.calls.length) ∧ ∀ i ∈ e'.calls, i < r'.calls.length := by
  have hboth {k i i' : Nat} (hk : e.calls[k]? = some i) (hk' : e'.calls[k]? = some i') :
      i < r.calls.length ∧ i' < r'.calls.length := by
    obtain ⟨c, c', hc, hc', _⟩ := h.calls i i' (.call hk hk')
    exact ⟨(List.getElem?_eq_some_iff.mp hc).1, (List.getElem?_eq_some_iff.mp hc').1⟩
  constructor
  · intro i hi
    obtain ⟨k, hk⟩ := List.mem_iff_getElem?.mp hi
    have hlt : k < e'.calls.length := h.length ▸ (List.getElem?_eq_some_iff.mp hk).1
    exact (hboth hk (List.getElem?_eq_getElem hlt)).1
  · intro i' hi'
    obtain ⟨k, hk'⟩ := List.mem_iff_getElem?.mp hi'
    have hlt : k < e.calls.length := h.length ▸ (List.getElem?_eq_some_iff.mp hk').1
    exact (hboth (List.getElem?_eq_getElem hlt) hk').2

/-- What leaves the calls alone leaves them as they would stand. -/
theorem within (h : Standing request e e' r r') (hv : Within e.session r v)
    (hv' : Within e'.session r' v')
    (ha : Alike request (Matched e.calls e'.calls) e.session e'.session v v') :
    Standing request e e' v v' := by
  refine ⟨ha, h.length, h.nodup, ?_⟩
  rw [hv.calls, hv'.calls]
  exact h.calls

/-- A call goes on, and the others stay. -/
theorem deals (h : Standing request e e' r r')
    (hm : Matched e.calls e'.calls (.call i) (.call i'))
    (hd : Deals request (Matched e.calls e'.calls) e.session e'.session i i' r r' v v') :
    Standing request e e' v v' := by
  obtain ⟨u, u', d, d', hu, hu', rfl, rfl, ha, ht⟩ := hd
  refine ⟨{ ha with }, h.length, h.nodup, ?_⟩
  intro j j' hj
  obtain ⟨c, c', hc, hc', hcc⟩ := h.calls j j' hj
  have hsame : j = i ↔ j' = i' := by
    simpa using Relator.rel_eq h.biUnique hj hm
  -- the call that goes on stands at what `hd` says, and the others at what they stood at
  show ∃ c c', (u.calls.set i d)[j]? = some c ∧ (u'.calls.set i' d')[j']? = some c' ∧ _
  rw [hu.calls, hu'.calls]
  by_cases hji : j = i
  · obtain rfl := hji
    obtain rfl := hsame.mp rfl
    have hlt := (List.getElem?_eq_some_iff.mp hc).1
    have hlt' := (List.getElem?_eq_some_iff.mp hc').1
    exact ⟨d, d', List.getElem?_set_self hlt, List.getElem?_set_self hlt', ht⟩
  · have hji' : j' ≠ i' := fun heq => hji (hsame.mpr heq)
    refine ⟨c, c', ?_, ?_, hcc⟩
    · rw [List.getElem?_set_ne (Ne.symm hji), hc]
    · rw [List.getElem?_set_ne (Ne.symm hji'), hc']

/-- A call is added in both registries. -/
theorem addCall (h : Standing request e e' r r') :
    Standing request { e with calls := e.calls ++ [r.calls.length] }
      { e' with calls := e'.calls ++ [r'.calls.length] } (r.addCall .crashed)
      (r'.addCall .crashed) := by
  have hmono := h.alike.mono fun p p' => matched_append r.calls.length r'.calls.length
  -- the new call has a number that no call had
  have hnew : r.calls.length ∉ e.calls := fun hmem => Nat.lt_irrefl _ (h.lt_length.1 _ hmem)
  have hnew' : r'.calls.length ∉ e'.calls := fun hmem => Nat.lt_irrefl _ (h.lt_length.2 _ hmem)
  refine ⟨{ hmono with }, ?_, ?_, ?_⟩
  · show (e'.calls ++ [r'.calls.length]).length = (e.calls ++ [r.calls.length]).length
    rw [List.length_append, List.length_append, h.length]
    rfl
  · rw [← List.concat_eq_append, ← List.concat_eq_append]
    exact ⟨h.nodup.1.concat hnew, h.nodup.2.concat hnew'⟩
  · intro j j' hj
    show ∃ c c', (r.calls ++ [.crashed])[j]? = some c ∧ (r'.calls ++ [.crashed])[j']? = some c' ∧ _
    rcases matched_append_cases h.length hj with hj | ⟨rfl, rfl⟩
    · obtain ⟨c, c', hc, hc', hcc⟩ := h.calls j j' hj
      refine ⟨c, c', ?_, ?_, hcc⟩
      · rw [List.getElem?_append_left (List.getElem?_eq_some_iff.mp hc).1, hc]
      · rw [List.getElem?_append_left (List.getElem?_eq_some_iff.mp hc').1, hc']
    · exact ⟨.crashed, .crashed, List.getElem?_concat_length, List.getElem?_concat_length, .crashed⟩

end Standing

end Multicast
