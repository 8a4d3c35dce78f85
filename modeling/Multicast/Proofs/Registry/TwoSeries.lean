import Multicast.Proofs.Registry.Series

/-! Two series of deliveries side by side. Pings can be taken out of a series, and nothing changes
but the number of writes; and the two stale policies lead the cursor through the same positions. -/

namespace Multicast

/-! ### Cursors under the two policies -/

namespace Cursor

variable {c : Cursor Nat} {ids : List Nat}

/-- What the later policy lets pass, the earlier one does. -/
theorem isStale_older_of_notAfter (h : c.isStale .notAfter ids = false) :
    c.isStale .older ids = false := by
  rcases eq_or_ne ids [] with rfl | hne
  · obtain ⟨_ | p⟩ := c <;> rfl
  · obtain ⟨i, hi, hafter⟩ := (c.isStale_eq_false_iff .notAfter hne).mp h
    exact (c.isStale_eq_false_iff .older hne).mpr ⟨i, hi, fun p hp => Nat.le_of_lt (hafter p hp)⟩

/-- None of the ids that are stale under the later policy is beyond the cursor. -/
theorem le_of_isStale_notAfter {p i : Nat}
    (h : (⟨some p⟩ : Cursor Nat).isStale .notAfter ids = true) (hi : i ∈ ids) : i ≤ p := by
  obtain ⟨-, q, hq, hall⟩ := isStale_eq_true_iff.mp h
  obtain rfl : p = q := Option.some.inj hq
  exact idIsStale_notAfter_iff.mp (hall i hi)

/-- Ids that only the earlier policy lets pass: the largest one stands at the cursor. -/
theorem fresh_and_stale_iff (c : Cursor Nat) (hne : ids ≠ []) :
    c.isStale .older ids = false ∧ c.isStale .notAfter ids = true ↔ ids.max? = c.position := by
  obtain ⟨_ | p⟩ := c
  · refine iff_of_false (fun h => nomatch h.2) fun h => hne (List.max?_eq_none_iff.mp h)
  · rw [List.max?_eq_some_iff]
    constructor
    · rintro ⟨hfresh, hstale⟩
      obtain ⟨i, hi, hle⟩ := (isStale_eq_false_iff _ .older hne).mp hfresh
      have hall : ∀ j ∈ ids, j ≤ p := fun j hj => le_of_isStale_notAfter hstale hj
      exact ⟨Nat.le_antisymm (hall i hi) (hle p rfl) ▸ hi, hall⟩
    · rintro ⟨hp, hall⟩
      refine ⟨(isStale_eq_false_iff _ .older hne).mpr
        ⟨p, hp, fun q hq => Option.some.inj hq ▸ Nat.le_refl p⟩, ?_⟩
      by_contra hfresh
      obtain ⟨i, hi, hlt⟩ :=
        (isStale_eq_false_iff _ .notAfter hne).mp (Bool.eq_false_iff.mpr hfresh)
      exact absurd (hall i hi) (Nat.not_le_of_lt (hlt p rfl))

/-- The cursor does not follow what is stale under the later policy, whichever id comes last. -/
theorem follow_of_stale {b : Batch Nat} (h : c.isStale .notAfter b.ids = true) :
    c.follow b = c := by
  unfold follow
  cases hlast : b.lastId? with
  | none => rfl
  | some i =>
    have hi : i ∈ b.ids := List.mem_of_getLast? (b.lastId?_eq_getLast? ▸ hlast)
    obtain ⟨_ | p⟩ := c
    · cases h
    · have hle : i ≤ p := le_of_isStale_notAfter h hi
      exact congrArg Prod.fst (if_neg (Nat.not_lt_of_le hle))

/-- The cursor follows the ids alone. -/
theorem follow_congr (c : Cursor Nat) {b b' : Batch Nat} (h : b.ids = b'.ids) :
    c.follow b = c.follow b' := by
  unfold follow
  rw [b.lastId?_eq_getLast?, b'.lastId?_eq_getLast?, h]

end Cursor

theorem Parcel.ids_ne_nil {q : Parcel} (h : q.isKeepAlive = false) : q.batch.ids ≠ [] := by
  have hdata : q.batch.isPing = false := (Bool.or_eq_false_iff.mp h).2
  intro hnil
  rw [Batch.isPing, List.map_eq_nil_iff.mp hnil] at hdata
  cases hdata

namespace Receipt

/-- What was delivered, if it was written as data. -/
def written? (e : Receipt) : Option Parcel := e.data?.map fun _ => e.parcel

/-- Whether the largest id of the batch stands at the cursor. -/
def atCursor (e : Receipt) : Bool := decide (e.parcel.batch.ids.max? = e.found.position)

variable (e : Receipt)

theorem written?_of_keepAlive (hk : e.parcel.isKeepAlive = true) : e.written? = none := by
  rw [written?, data?, if_pos hk]
  rfl

theorem written?_of_none (h : e.frame? = none) : e.written? = none := by
  rw [written?, data?, h, ite_self]
  rfl

theorem written?_of_some {frame : Batch Nat} (hk : e.parcel.isKeepAlive = false)
    (h : e.frame? = some frame) : e.written? = some e.parcel := by
  rw [written?, data?, hk, h]
  rfl

end Receipt

namespace Registry

variable {policy : StalePolicy} {sends sends' : Batch Nat → Batch Nat → Prop}
  {f : Batch Nat → Batch Nat} {x x' y y' : Session} {e e' : Receipt} {es es' : List Receipt}
  {r r' v v' : Registry} {s s' : SessionId}

/-! ### Pings -/

theorem Accounted.mono (hs : ∀ b frame, sends b frame → sends' b frame)
    (h : Accounted policy sends x e y) : Accounted policy sends' x e y := by
  cases h with
  | stale hk hstale hframe hsame => exact .stale hk hstale hframe hsame
  | keepAlive hk hframe hsent hcursor hlast hwrites =>
    exact .keepAlive hk hframe (hs _ _ hsent) hcursor hlast hwrites
  | data hk hfresh hframe hsent hcursor hlast hwrites =>
    exact .data hk hfresh hframe (hs _ _ hsent) hcursor hlast hwrites

theorem Accounts.mono (hs : ∀ b frame, sends b frame → sends' b frame)
    (h : Accounts policy sends x es y) : Accounts policy sends' x es y := by
  induction h with
  | nil hsame => exact .nil hsame
  | cons hfound hleft h t ih => exact .cons hfound hleft (h.mono hs) ih

/-- A keep-alive is written whatever the cursor, and leaves it alone. -/
theorem Accounted.of_keepAlive (h : Accounted policy sends x e y)
    (hk : e.parcel.isKeepAlive = true) :
    ∃ frame, e.frame? = some frame ∧ sends e.parcel.batch frame ∧ y.cursor = x.cursor ∧
      y.lastSent = x.lastSent ∧ y.writes = x.writes + 1 := by
  cases h with
  | keepAlive _ hframe hsent hcursor hlast hwrites =>
    exact ⟨_, hframe, hsent, hcursor, hlast, hwrites⟩
  | stale hk' | data hk' =>
    rw [hk] at hk'
    cases hk'

/-- Deliveries of the same data to subscribers that know the same end alike, if what is sent follows
from the batch. -/
theorem Accounted.agree (h : Accounted policy (fun b frame => frame = f b) x e y)
    (h' : Accounted policy (fun b frame => frame = f b) x' e' y')
    (hk : e.parcel.isKeepAlive = false) (hparcel : e'.parcel = e.parcel)
    (hcursor : x'.cursor = x.cursor) (hlast : x'.lastSent = x.lastSent) :
    e'.frame? = e.frame? ∧ y'.cursor = y.cursor ∧ y'.lastSent = y.lastSent ∧
      y.writes + x'.writes = y'.writes + x.writes := by
  have hk' : e'.parcel.isKeepAlive = false := by rw [hparcel, hk]
  cases h with
  | keepAlive hping => cases hk.symm.trans hping
  | stale _ hstale hframe hsame =>
    cases h' with
    | keepAlive hping => cases hk'.symm.trans hping
    | data _ hfresh =>
      rw [hparcel, hcursor, hstale] at hfresh
      cases hfresh
    | stale _ hstale' hframe' hsame' =>
      refine ⟨hframe'.trans hframe.symm, ?_, ?_, ?_⟩
      · rw [hsame'.cursor, hsame.cursor, hcursor]
      · rw [hsame'.lastSent, hsame.lastSent, hlast]
      · rw [hsame'.writes, hsame.writes, Nat.add_comm]
  | data _ hfresh hframe hsent hc hl hw =>
    cases h' with
    | keepAlive hping => cases hk'.symm.trans hping
    | stale _ hstale' =>
      rw [hparcel, hcursor, hfresh] at hstale'
      cases hstale'
    | data _ hfresh' hframe' hsent' hc' hl' hw' =>
      rw [hsent] at hframe hc hl
      rw [hsent', hparcel] at hframe' hc' hl'
      refine ⟨hframe'.trans hframe.symm, ?_, hl'.trans hl.symm, ?_⟩
      · rw [hc', hc, hcursor]
      · rw [hw, hw']
        omega

theorem Accounts.of_process (hf : ∀ z b, r.hooks.process z b = f b)
    (h : Accounts policy r.Sends x es y) : Accounts policy (fun b frame => frame = f b) x es y := by
  refine h.mono fun b frame hsent => ?_
  obtain ⟨z, rfl⟩ := hsent
  exact hf z b

theorem Accounts.keepAlive_written (h : Accounts policy (fun b frame => frame = f b) x es y) :
    ∀ e ∈ es, e.parcel.isKeepAlive = true → e.frame? = some (f e.parcel.batch) := by
  induction h with
  | nil => exact nofun
  | cons hfound hleft h t ih =>
    refine List.forall_mem_cons.mpr ⟨fun hk => ?_, ih⟩
    obtain ⟨frame, hframe, hsent, -⟩ := h.of_keepAlive hk
    rw [hframe, hsent]

/-- Two series, one of which lacks the keep-alives of the other, keep to the same cursor and the
same data. -/
theorem Accounts.erase (h : Accounts policy (fun b frame => frame = f b) x es y)
    (h' : Accounts policy (fun b frame => frame = f b) x' es' y')
    (hcursor : x'.cursor = x.cursor) (hlast : x'.lastSent = x.lastSent)
    (herase : es'.map Receipt.parcel = (es.map Receipt.parcel).filter (!·.isKeepAlive)) :
    es' = es.filter (!·.parcel.isKeepAlive) ∧ y'.cursor = y.cursor ∧ y'.lastSent = y.lastSent ∧
      y.writes + x'.writes = y'.writes + x.writes + es.countP (·.parcel.isKeepAlive) := by
  -- along the longer series; the shorter one goes on with it unless there is a keep-alive
  induction h generalizing x' es' with
  | nil hsame =>
    obtain rfl : es' = [] := List.map_eq_nil_iff.mp herase
    cases h' with
    | nil hsame' =>
      refine ⟨rfl, ?_, ?_, ?_⟩
      · rw [hsame'.cursor, hsame.cursor, hcursor]
      · rw [hsame'.lastSent, hsame.lastSent, hlast]
      · rw [hsame'.writes, hsame.writes, List.countP_nil, Nat.add_zero, Nat.add_comm]
  | @cons x y z e es hfound hleft h t ih =>
    cases hk : e.parcel.isKeepAlive with
    | true =>
      rw [List.map_cons, List.filter_cons_of_neg (by simp [hk])] at herase
      rw [List.filter_cons_of_neg (by simp [hk]),
        show (e :: es).countP (·.parcel.isKeepAlive) = es.countP (·.parcel.isKeepAlive) + 1 from
          List.countP_cons_of_pos hk]
      obtain ⟨-, -, -, hc, hl, hw⟩ := h.of_keepAlive hk
      obtain ⟨hes, hends, hlasts, hwrites⟩ :=
        ih h' (hcursor.trans hc.symm) (hlast.trans hl.symm) herase
      refine ⟨hes, hends, hlasts, ?_⟩
      omega
    | false =>
      rw [List.map_cons, List.filter_cons_of_pos (by simp [hk])] at herase
      rw [List.filter_cons_of_pos (by simp [hk]), List.countP_cons_of_neg (by simp [hk])]
      cases h' with
      | nil => cases herase
      | @cons _ y' _ e' es' hfound' hleft' h' t' =>
        obtain ⟨hparcel, herase⟩ := List.cons.inj herase
        obtain ⟨hframe, hc, hl, hw⟩ := h.agree h' hk hparcel hcursor hlast
        obtain ⟨hes, hends, hlasts, hwrites⟩ := ih t' hc hl herase
        have he : e' = e := Receipt.ext hparcel (by rw [hfound', hfound, hcursor]) hframe
          (by rw [hleft', hleft, hc])
        refine ⟨by rw [he, hes], hends, hlasts, ?_⟩
        omega

/-- Pings are transparent. If what is sent follows from the batch, then a series of deliveries and
the same one without its pings, to subscribers that have the same record, make the same decisions at
the same cursors and send the same data; each ping is written, whatever the cursor, and only the
number of writes tells of it. -/
theorem pings_transparent (f : Batch Nat → Batch Nat)
    (hf : ∀ z b, r.hooks.process z b = f b) (hf' : ∀ z b, r'.hooks.process z b = f b)
    (hpolicy : r'.config.stalePolicy = r.config.stalePolicy)
    (hx : r.session? s = some x) (hx' : r'.session? s' = some x') (hsame : x.SameRecord x')
    (h : Series s r es v) (h' : Series s' r' es' v')
    (herase : es'.map Receipt.parcel = (es.map Receipt.parcel).filter (!·.isKeepAlive)) :
    es' = es.filter (!·.parcel.isKeepAlive) ∧
    (∃ y y', v.session? s = some y ∧ v'.session? s' = some y' ∧ y'.cursor = y.cursor ∧
      y'.lastSent = y.lastSent ∧ y.writes = y'.writes + es.countP (·.parcel.isKeepAlive)) ∧
    WriteMark.delivered (v.log s) =
      (es.filterMap Receipt.data?).reverse ++ WriteMark.delivered (r.log s) ∧
    WriteMark.delivered (v'.log s') =
      (es.filterMap Receipt.data?).reverse ++ WriteMark.delivered (r'.log s') ∧
    v.written s = (es.filterMap Receipt.mark?).reverse ++ r.written s ∧
    ∀ e ∈ es, e.parcel.isKeepAlive = true → e.frame? = some (f e.parcel.batch) := by
  obtain ⟨y, hy, haccounts⟩ := h.accounts hx
  obtain ⟨y', hy', haccounts'⟩ := h'.accounts hx'
  have hsent := haccounts.of_process hf
  have hsent' := haccounts'.of_process hf'
  rw [hpolicy] at hsent'
  obtain ⟨hes, hcursor, hlast, hwrites⟩ := hsent.erase hsent' hsame.cursor hsame.lastSent herase
  have hdata : es'.filterMap Receipt.data? = es.filterMap Receipt.data? := by
    rw [hes, List.filterMap_filter]
    refine List.filterMap_congr fun e _ => ?_
    unfold Receipt.data?
    cases e.parcel.isKeepAlive <;> rfl
  refine ⟨hes, ⟨y, y', hy, hy', hcursor, hlast, ?_⟩, h.delivered hx, ?_, h.written hx,
    hsent.keepAlive_written⟩
  · rw [hsame.writes] at hwrites
    omega
  · rw [h'.delivered hx', hdata]

/-- A replay of what was sent last and a backfill without items come to nothing but two writes; the
stale batch after them is judged as if they had not been. -/
theorem pings_transparent_of_replay :
    let r := (new {} {}).run [.subscribe {}, .run (.call 1)]
    let parcels := [⟨.live, ⟨[⟨5, ""⟩]⟩⟩, ⟨.ping, ⟨[⟨5, ""⟩]⟩⟩, ⟨.historical, .empty⟩,
      ⟨.historical, ⟨[⟨3, ""⟩]⟩⟩, ⟨.live, ⟨[⟨7, ""⟩]⟩⟩]
    ∃ es es' v v' y y', Series 0 r es v ∧ Series 0 r es' v' ∧ es.map Receipt.parcel = parcels ∧
      es' = es.filter (!·.parcel.isKeepAlive) ∧ v.session? 0 = some y ∧ v'.session? 0 = some y' ∧
      y'.cursor = y.cursor ∧ y.writes = y'.writes + 2 := by
  intro r parcels
  obtain ⟨x, hx, hsink⟩ : ∃ x, r.session? 0 = some x ∧ x.sink = .scripted [] := ⟨_, rfl, rfl⟩
  obtain ⟨es, v, h, hparcels⟩ := exists_series hx hsink parcels
  obtain ⟨es', v', h', hparcels'⟩ := exists_series hx hsink (parcels.filter (!·.isKeepAlive))
  obtain ⟨hes, ⟨y, y', hy, hy', hcursor, -, hwrites⟩, -⟩ := pings_transparent id (fun _ _ => rfl)
    (fun _ _ => rfl) rfl hx hx (.refl x) h h' (by rw [hparcels, hparcels'])
  have hcount : es.countP (·.parcel.isKeepAlive) = 2 := by
    have hmap : (es.map Receipt.parcel).countP Parcel.isKeepAlive =
        es.countP (·.parcel.isKeepAlive) := List.countP_map
    rw [← hmap, hparcels]
    rfl
  rw [hcount] at hwrites
  exact ⟨es, es', v, v', y, y', h, h', hparcels, hes, hy, hy', hcursor, hwrites⟩

/-! ### The two policies -/

/-- Data whose largest id stands at the cursor is what only the earlier policy lets pass. -/
theorem atCursor_iff (hk : e.parcel.isKeepAlive = false) (hfound : e.found = x.cursor) :
    e.atCursor = true ↔ x.cursor.isStale .older e.parcel.batch.ids = false ∧
      x.cursor.isStale .notAfter e.parcel.batch.ids = true := by
  rw [Cursor.fresh_and_stale_iff x.cursor (Parcel.ids_ne_nil hk), ← hfound]
  exact decide_eq_true_iff

/-- The earlier policy writes the data that stands at the cursor. -/
theorem Accounted.written_of_atCursor (h : Accounted .older sends x e y)
    (hfound : e.found = x.cursor) (hk : e.parcel.isKeepAlive = false) (hat : e.atCursor = true) :
    e.written? = some e.parcel := by
  obtain ⟨hfresh, -⟩ := (atCursor_iff hk hfound).mp hat
  cases h with
  | stale _ hstale => cases hfresh.symm.trans hstale
  | keepAlive hping => cases hk.symm.trans hping
  | data _ _ hframe => exact e.written?_of_some hk hframe

theorem Accounts.written_of_atCursor (h : Accounts .older sends x es y) :
    ∀ e ∈ es, e.parcel.isKeepAlive = false → e.atCursor = true → e.written? = some e.parcel := by
  induction h with
  | nil => exact nofun
  | cons hfound _ h t ih => exact List.forall_mem_cons.mpr ⟨h.written_of_atCursor hfound, ih⟩

/-- What a delivery under the earlier policy and one of the same batch under the later policy have
in common. -/
structure InStep (e e' : Receipt) : Prop where
  found : e'.found = e.found
  left : e'.left = e.left
  written : e'.written? = if e.atCursor then none else e.written?

/-- One delivery under both policies, from the same cursor. -/
theorem Accounted.inStep (hs : ∀ b frame, sends b frame → frame.ids = b.ids)
    (hs' : ∀ b frame, sends' b frame → frame.ids = b.ids) (h : Accounted .older sends x e y)
    (h' : Accounted .notAfter sends' x' e' y') (hparcel : e'.parcel = e.parcel)
    (hfound : e.found = x.cursor) (hcursor : x'.cursor = x.cursor) :
    y'.cursor = y.cursor ∧ e'.written? = if e.atCursor then none else e.written? := by
  cases hk : e.parcel.isKeepAlive with
  | true =>
    have hk' : e'.parcel.isKeepAlive = true := by rw [hparcel, hk]
    obtain ⟨-, -, -, hc, -, -⟩ := h.of_keepAlive hk
    obtain ⟨-, -, -, hc', -, -⟩ := h'.of_keepAlive hk'
    refine ⟨by rw [hc', hc, hcursor], ?_⟩
    rw [e.written?_of_keepAlive hk, e'.written?_of_keepAlive hk', ite_self]
  | false =>
    have hk' : e'.parcel.isKeepAlive = false := by rw [hparcel, hk]
    have hat := atCursor_iff hk hfound
    cases h with
    | keepAlive hping => cases hk.symm.trans hping
    | stale _ hstale hframe hsame =>
      -- what is stale under the earlier policy is so under the later one
      cases h' with
      | keepAlive hping => cases hk'.symm.trans hping
      | data _ hfresh =>
        rw [hparcel, hcursor] at hfresh
        cases hstale.symm.trans (Cursor.isStale_older_of_notAfter hfresh)
      | stale _ _ hframe' hsame' =>
        refine ⟨by rw [hsame'.cursor, hsame.cursor, hcursor], ?_⟩
        rw [e.written?_of_none hframe, e'.written?_of_none hframe', ite_self]
    | data _ hfresh hframe hsent hc =>
      cases h' with
      | keepAlive hping => cases hk'.symm.trans hping
      | stale _ hstale' hframe' hsame' =>
        -- only the earlier policy writes: the cursor stands at the largest id and stays
        rw [hparcel, hcursor] at hstale'
        have hkept : x.cursor.follow _ = x.cursor :=
          Cursor.follow_of_stale (by rw [hs _ _ hsent, hstale'])
        refine ⟨by rw [hsame'.cursor, hcursor, hc, hkept], ?_⟩
        rw [hat.mpr ⟨hfresh, hstale'⟩, e'.written?_of_none hframe', if_pos rfl]
      | data _ hfresh' hframe' hsent' hc' =>
        rw [hparcel, hcursor] at hfresh'
        rw [hparcel] at hsent'
        have hno : e.atCursor = false := Bool.eq_false_iff.mpr fun h =>
          nomatch hfresh'.symm.trans (hat.mp h).2
        refine ⟨?_, ?_⟩
        · rw [hc', hc, hcursor]
          exact Cursor.follow_congr _ ((hs' _ _ hsent').trans (hs _ _ hsent).symm)
        · rw [hno, e.written?_of_some hk hframe, e'.written?_of_some hk' hframe', hparcel]
          rfl

theorem Accounts.inStep (hs : ∀ b frame, sends b frame → frame.ids = b.ids)
    (hs' : ∀ b frame, sends' b frame → frame.ids = b.ids) (h : Accounts .older sends x es y)
    (h' : Accounts .notAfter sends' x' es' y') (hcursor : x'.cursor = x.cursor)
    (hparcels : es'.map Receipt.parcel = es.map Receipt.parcel) :
    List.Forall₂ InStep es es' ∧ y'.cursor = y.cursor := by
  induction h generalizing x' es' with
  | nil hsame =>
    obtain rfl : es' = [] := List.map_eq_nil_iff.mp hparcels
    cases h' with
    | nil hsame' => exact ⟨.nil, by rw [hsame'.cursor, hsame.cursor, hcursor]⟩
  | @cons x y z e es hfound hleft h t ih =>
    cases h' with
    | nil => cases hparcels
    | @cons _ y' _ e' es' hfound' hleft' h' t' =>
      obtain ⟨hparcel, hparcels⟩ := List.cons.inj hparcels
      obtain ⟨hc, hwritten⟩ := h.inStep hs hs' h' hparcel hfound hcursor
      obtain ⟨hrest, hends⟩ := ih t' hc hparcels
      have hstep : InStep e e' :=
        ⟨by rw [hfound', hfound, hcursor], by rw [hleft', hleft, hc], hwritten⟩
      exact ⟨.cons hstep hrest, hends⟩

theorem map_of_inStep {g : Receipt → Cursor Nat} (hg : ∀ e e', InStep e e' → g e' = g e)
    (h : List.Forall₂ InStep es es') : es'.map g = es.map g := by
  induction h with
  | nil => rfl
  | cons h t ih => rw [List.map_cons, List.map_cons, hg _ _ h, ih]

theorem Accounted.map_data {β : Type} {g g' : Batch Nat → β}
    (hg : ∀ b frame, sends b frame → g frame = g' b) (h : Accounted policy sends x e y) :
    e.data?.map g = e.written?.map (g' ·.batch) := by
  cases h with
  | stale hk _ hframe =>
    rw [e.written?_of_none hframe, Receipt.data?, hframe, ite_self]
    rfl
  | keepAlive hk =>
    rw [e.written?_of_keepAlive hk, Receipt.data?, if_pos hk]
    rfl
  | data hk _ hframe hsent =>
    rw [e.written?_of_some hk hframe, Receipt.data?, hk, hframe]
    exact congrArg some (hg _ _ hsent)

/-- What is known of a frame from its batch can be told from the batches written. -/
theorem Accounts.map_data {β : Type} {g g' : Batch Nat → β}
    (hg : ∀ b frame, sends b frame → g frame = g' b) (h : Accounts policy sends x es y) :
    (es.filterMap Receipt.data?).map g =
      (es.filterMap Receipt.written?).map (g' ·.batch) := by
  rw [List.map_filterMap, List.map_filterMap]
  refine List.filterMap_congr ?_
  induction h with
  | nil => exact nofun
  | cons _ _ h t ih => exact List.forall_mem_cons.mpr ⟨h.map_data hg, ih⟩

theorem Accounts.data_eq (h : Accounts policy (fun b frame => frame = f b) x es y) :
    es.filterMap Receipt.data? = (es.filterMap Receipt.written?).map (f ·.batch) := by
  rw [← h.map_data fun _ _ (hsent : id _ = _) => hsent, List.map_id]

/-- The later policy writes what the earlier one does but for the batches at the cursor. -/
theorem written_of_inStep (h : List.Forall₂ InStep es es') :
    es'.filterMap Receipt.written? = (es.filter (!·.atCursor)).filterMap Receipt.written? := by
  induction h with
  | nil => rfl
  | @cons e e' es es' h t ih =>
    have hwritten := h.written
    cases hat : e.atCursor with
    | true =>
      rw [hat, if_pos rfl] at hwritten
      rw [List.filter_cons_of_neg (by simp [hat]), List.filterMap_cons_none hwritten, ih]
    | false =>
      rw [hat] at hwritten
      rw [List.filter_cons_of_pos (by simp [hat]), List.filterMap_cons, List.filterMap_cons,
        show e'.written? = e.written? from hwritten, ih]

/-- The two stale policies follow the same cursor. If what is sent keeps the ids of the batch, then
the same deliveries under both policies, from the same cursor, begin and end at the same cursors.
The data written under the later policy is what is written under the earlier one but for the batches
whose largest id stands at the cursor, and each of these is written there. -/
theorem policies_follow_same_cursor
    (hids : ∀ z b, (r.hooks.process z b).ids = b.ids)
    (hids' : ∀ z b, (r'.hooks.process z b).ids = b.ids)
    (holder : r.config.stalePolicy = .older) (hlater : r'.config.stalePolicy = .notAfter)
    (hx : r.session? s = some x) (hx' : r'.session? s' = some x') (hcursor : x'.cursor = x.cursor)
    (h : Series s r es v) (h' : Series s' r' es' v')
    (hparcels : es'.map Receipt.parcel = es.map Receipt.parcel) :
    es'.map Receipt.found = es.map Receipt.found ∧ es'.map Receipt.left = es.map Receipt.left ∧
    (∃ y y', v.session? s = some y ∧ v'.session? s' = some y' ∧ y'.cursor = y.cursor) ∧
    es'.filterMap Receipt.written? = (es.filter (!·.atCursor)).filterMap Receipt.written? ∧
    (∀ e ∈ es, e.parcel.isKeepAlive = false → e.atCursor = true → e.written? = some e.parcel) ∧
    ((es'.filterMap Receipt.data?).map Batch.ids).Sublist
      ((es.filterMap Receipt.data?).map Batch.ids) ∧
    ∀ f : Batch Nat → Batch Nat, (∀ z b, r.hooks.process z b = f b) →
      (∀ z b, r'.hooks.process z b = f b) →
        (es'.filterMap Receipt.data?).Sublist (es.filterMap Receipt.data?) := by
  obtain ⟨y, hy, haccounts⟩ := h.accounts hx
  obtain ⟨y', hy', haccounts'⟩ := h'.accounts hx'
  rw [holder] at haccounts
  rw [hlater] at haccounts'
  have hs : ∀ b frame, r.Sends b frame → frame.ids = b.ids := by
    rintro b frame ⟨z, rfl⟩
    exact hids z b
  have hs' : ∀ b frame, r'.Sends b frame → frame.ids = b.ids := by
    rintro b frame ⟨z, rfl⟩
    exact hids' z b
  obtain ⟨hsteps, hends⟩ := haccounts.inStep hs hs' haccounts' hcursor hparcels
  have hwritten := written_of_inStep hsteps
  have hsub : (es'.filterMap Receipt.written?).Sublist (es.filterMap Receipt.written?) := by
    rw [hwritten]
    exact List.filter_sublist.filterMap _
  refine ⟨map_of_inStep (fun _ _ h => h.found) hsteps, map_of_inStep (fun _ _ h => h.left) hsteps,
    ⟨y, y', hy, hy', hends⟩, hwritten, haccounts.written_of_atCursor, ?_, fun f hf hf' => ?_⟩
  · rw [haccounts.map_data hs, haccounts'.map_data hs']
    exact hsub.map _
  · rw [(haccounts.of_process hf).data_eq, (haccounts'.of_process hf').data_eq]
    exact hsub.map _

/-- An unsorted batch whose largest id stands at the cursor is written under the earlier policy
only, and does not move the cursor; another one moves it to its last id under both. -/
theorem policies_follow_same_cursor_of_unsorted :
    let actions := [.subscribe {}, .run (.call 1)]
    let r := (new { stalePolicy := .older } {}).run actions
    let r' := (new { stalePolicy := .notAfter } {}).run actions
    let parcels := [⟨.live, ⟨[⟨5, ""⟩]⟩⟩, ⟨.historical, ⟨[⟨5, ""⟩, ⟨3, ""⟩]⟩⟩,
      ⟨.ping, ⟨[⟨5, ""⟩]⟩⟩, ⟨.historical, ⟨[⟨9, ""⟩, ⟨6, ""⟩]⟩⟩]
    ∃ es es' v v' y y', Series 0 r es v ∧ Series 0 r' es' v' ∧
      es.map Receipt.parcel = parcels ∧ es'.map Receipt.parcel = parcels ∧
      es'.map Receipt.left = es.map Receipt.left ∧ v.session? 0 = some y ∧
      v'.session? 0 = some y' ∧ y'.cursor = y.cursor ∧
      es'.filterMap Receipt.written? = (es.filter (!·.atCursor)).filterMap Receipt.written? := by
  intro actions r r' parcels
  obtain ⟨x, hx, hsink, hnew⟩ : ∃ x, r.session? 0 = some x ∧ x.sink = .scripted [] ∧
    x.cursor = .new := ⟨_, rfl, rfl, rfl⟩
  obtain ⟨x', hx', hsink', hnew'⟩ : ∃ x, r'.session? 0 = some x ∧ x.sink = .scripted [] ∧
    x.cursor = .new := ⟨_, rfl, rfl, rfl⟩
  obtain ⟨es, v, h, hparcels⟩ := exists_series hx hsink parcels
  obtain ⟨es', v', h', hparcels'⟩ := exists_series hx' hsink' parcels
  obtain ⟨-, hleft, ⟨y, y', hy, hy', hcursor⟩, hwritten, -⟩ := policies_follow_same_cursor
    (fun _ _ => rfl) (fun _ _ => rfl) rfl rfl hx hx' (hnew'.trans hnew.symm) h h'
    (hparcels'.trans hparcels.symm)
  exact ⟨es, es', v, v', y, y', h, h', hparcels, hparcels', hleft, hy, hy', hcursor, hwritten⟩

end Registry

end Multicast
