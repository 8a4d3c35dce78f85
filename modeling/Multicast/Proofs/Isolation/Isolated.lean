import Multicast.Proofs.Isolation.Keep

/-! Every run of a directory. What is seen of a subscriber follows from the moves that concern its
name; the others may be left out, or be there. -/

namespace Multicast

open Registry

variable {config : Config} {request : Subscription} {name other : String} {d d' : Directory}
  {e : Entry} {move : Move} {moves : List Move} {gone : Bool}

namespace Directory

/-! ### One move -/

theorem like_act (h : Like name request d d') (hs : Sound config d) (hs' : Sound config d')
    (deed : Deed) : Like name request (d.act name deed) (d'.act name deed) := by
  rcases h.entry with ⟨hnone, hnone'⟩ | ⟨e, e', he, he', hstand⟩
  · simp only [act, hnone, hnone']
    exact h
  · obtain ⟨hafter, hconfined, hconfined'⟩ :=
      standing_deed hstand hs.settled hs.gated hs'.settled hs'.gated deed
    rw [act_of_entry he, act_of_entry he']
    refine ⟨hafter.alike.toAround, ?_, .inr ⟨_, _, Function.update_self .., Function.update_self ..,
      hafter⟩⟩
    exact (clock_of_confined hs' he' hconfined').trans
      (h.clock.trans (clock_of_confined hs he hconfined).symm)

theorem like_subscribe (h : Like name request d d') (hs : Sound config d) (hs' : Sound config d')
    (q : NewSubscription) (hfirst : d.lookup? name = none → q.toSubscription = request) :
    Like name request (d.subscribe name q.toSubscription) (d'.subscribe name q.toSubscription) := by
  rcases h.entry with ⟨hnone, hnone'⟩ | ⟨e, e', he, he', hstand⟩
  · obtain rfl := hfirst hnone
    obtain ⟨hbrings, hentry⟩ := subscribe_of_free hs hnone q.toSubscription
    obtain ⟨hbrings', hentry'⟩ := subscribe_of_free hs' hnone' q.toSubscription
    obtain ⟨l, hl, _⟩ := hs.loop
    obtain ⟨l', hl', _⟩ := hs'.loop
    refine ⟨around_steady h.around hbrings.toSteady hbrings'.toSteady, ?_, .inr ?_⟩
    · rw [getElem?_of_append hbrings.calls (List.getElem?_eq_some_iff.mp hl).1,
        getElem?_of_append hbrings'.calls (List.getElem?_eq_some_iff.mp hl').1, h.clock]
    · refine ⟨_, _, ?_, ?_,
        standing_of_brings hs.settled hs'.settled h.around q.unused hbrings hbrings'⟩
      · rw [hentry, Function.update_self]
      · rw [hentry', Function.update_self]
  · rw [subscribe_of_taken he, subscribe_of_taken he']
    exact h

/-- What surrounds the subscribers changes in both directories. -/
theorem Like.surround (h : Like name request d d') {n n' : Nat} {ts ts' : List String}
    (ha : Around request { d.registry with now := n, cancelledTokens := ts }
      { d'.registry with now := n', cancelledTokens := ts' }) :
    Like name request (d.withRegistry { d.registry with now := n, cancelledTokens := ts })
      (d'.withRegistry { d'.registry with now := n', cancelledTokens := ts' }) where
  around := ha
  clock := h.clock
  entry := by
    rcases h.entry with hnone | ⟨e, e', he, he', hstand⟩
    · exact .inl hnone
    · exact .inr ⟨e, e', he, he', ⟨ha, hstand.alike.twin, hstand.alike.begun⟩, hstand.length,
        hstand.nodup, hstand.calls⟩

theorem like_cancel (h : Like name request d d') (token : String) :
    Like name request (d.withRegistry (d.registry.cancel token))
      (d'.withRegistry (d'.registry.cancel token)) := by
  refine h.surround { h.around with tokens := fun t ht => ?_ }
  rw [List.mem_cons, List.mem_cons, h.around.tokens t ht]

theorem like_elapse (h : Like name request d d') (ms : Nat) :
    Like name request (d.withRegistry (d.registry.apply (.elapse ms)))
      (d'.withRegistry (d'.registry.apply (.elapse ms))) := by
  refine h.surround { h.around with now := ?_ }
  show d'.registry.now + ms = d.registry.now + ms
  rw [h.around.now]

/-- A connection of others may end. -/
theorem like_cancel_left (h : Like name request d d') {token : String}
    (hne : request.token ≠ some token) :
    Like name request (d.withRegistry (d.registry.cancel token)) d' := by
  have ha : Around request (d.registry.cancel token) d'.registry := by
    refine { h.around with tokens := fun t ht => ?_ }
    have htoken : t ≠ token := by
      rintro rfl
      exact hne ht
    show _ ↔ t ∈ token :: d.registry.cancelledTokens
    rw [List.mem_cons, or_iff_right htoken]
    exact h.around.tokens t ht
  exact h.surround ha

/-- A move that is made in two directories leaves what belongs to a name as it would stand. -/
theorem like_perform (h : Like name request d d') (hs : Sound config d) (hs' : Sound config d')
    (move : Move)
    (hfirst : d.lookup? name = none → ∀ q, move.request? name = some q → q = request) :
    Like name request (d.perform move) (d'.perform move) := by
  cases move with
  | subscribe other q =>
    by_cases hname : other = name
    · subst hname
      exact like_subscribe h hs hs' q fun hnone => hfirst hnone _ (if_pos rfl)
    · exact h.passBy (passesBy_subscribe hs hname _) (passesBy_subscribe hs' hname _)
  | act other deed =>
    by_cases hname : other = name
    · subst hname
      exact like_act h hs hs' deed
    · exact h.passBy (passesBy_act hs hname deed) (passesBy_act hs' hname deed)
  | publishLive b => exact like_publishLive h hs hs' b
  | cancel token => exact like_cancel h token
  | sweep => exact like_sweep h hs hs'
  | sweepDue => exact like_sweepDue h hs hs'
  | elapse ms => exact like_elapse h ms

/-- A move that does not concern a name may be made in one directory only. -/
theorem like_perform_left (h : Like name request d d') (hs : Sound config d)
    (hgone : ∀ t, request.token = some t → t ∈ d.registry.cancelledTokens → gone = true)
    (hm : move.concerns name request gone = false) :
    Like name request (d.perform move) d' := by
  cases move with
  | subscribe other q =>
    have hne : other ≠ name := by simpa [Move.concerns] using hm
    exact h.passBy (passesBy_subscribe hs hne _) (.refl name d')
  | act other deed =>
    have hne : other ≠ name := by simpa [Move.concerns] using hm
    exact h.passBy (passesBy_act hs hne deed) (.refl name d')
  | publishLive b => exact h.passBy (passesBy_publishLive h hs hm) (.refl name d')
  | cancel token => exact like_cancel_left h (by simpa [Move.concerns] using hm)
  | sweep =>
    refine h.passBy (passesBy_sweep h hs ?_) (.refl name d')
    intro t ht hmem
    have hfalse : gone = false := hm
    rw [hgone t ht hmem] at hfalse
    cases hfalse
  | sweepDue => cases hm
  | elapse ms => cases hm

/-! ### What holds between two moves -/

/-- What a move does to the entries: one name may get one, or one more call. -/
theorem entry_perform (hs : Sound config d) (move : Move) :
    (d.perform move).lookup? = d.lookup? ∨
      (∃ name, d.lookup? name = none ∧ (d.perform move).lookup? =
        Function.update d.lookup? name (some { session := d.registry.sessions.length })) ∨
      ∃ name e deed, d.lookup? name = some e ∧ (d.perform move).lookup? =
        Function.update d.lookup? name (some (e.after d.registry deed)) := by
  cases move with
  | subscribe name q =>
    cases he : d.lookup? name with
    | none => exact .inr (.inl ⟨name, he, (subscribe_of_free hs he _).2⟩)
    | some e => exact .inl (congrArg lookup? (subscribe_of_taken he _))
  | act name deed =>
    cases he : d.lookup? name with
    | none => exact .inl (by simp only [perform, act, he])
    | some e => exact .inr (.inr ⟨name, e, deed, he, by rw [perform, act_of_entry he]; rfl⟩)
  | publishLive b => exact .inl rfl
  | cancel token => exact .inl rfl
  | sweep => exact .inl rfl
  | sweepDue => exact .inl rfl
  | elapse ms => exact .inl rfl

/-- Nothing but the clock and the signals changes what surrounds the subscribers. -/
theorem steady_perform (hs : Sound config d) (move : Move) :
    Steady d.registry (d.perform move).registry ∨ (∃ token, move = .cancel token) ∨
      ∃ ms, move = .elapse ms := by
  cases move with
  | subscribe name q =>
    refine .inl ?_
    cases he : d.lookup? name with
    | none => exact (subscribe_of_free hs he _).1.toSteady
    | some e =>
      rw [perform, subscribe_of_taken he]
      exact .refl _
  | act name deed =>
    refine .inl ?_
    cases he : d.lookup? name with
    | none =>
      simp only [perform, act, he]
      exact .refl _
    | some e =>
      rw [perform, act_of_entry he]
      exact (hs.confined he deed).toSteady
  | publishLive b =>
    refine .inl ?_
    show Steady d.registry (d.registry.publishLive b).1
    by_cases hb : b.size = 1
    · exact (visits_publishLive b hs.settled.sound.nodup hb).steady
    · rw [publishLive_of_invalid hb]
      exact .refl _
  | cancel token => exact .inr (.inl ⟨token, rfl⟩)
  | sweep => exact .inl (visits_sweep hs.settled hs.hooks).1.steady
  | sweepDue =>
    refine .inl ?_
    show Steady d.registry (d.registry.run d.registry.sweepDueActions)
    obtain ⟨l, hl, hpass⟩ := hs.loop
    by_cases hdue : l.next ≤ d.registry.nanos
    · exact (visits_sweepDue hs.settled hs.hooks hl hpass hs.running hdue).1.steady
    · rw [run_sweepDue_of_early hl hpass hs.running hdue]
      exact .refl _
  | elapse ms => exact .inr (.inr ⟨ms, rfl⟩)

/-- Between two moves the loop waits for its next pass. -/
theorem loop_perform (hs : Sound config d) (move : Move) :
    ∃ l, (d.perform move).registry.calls[0]? = some (.sweepLoop l) ∧ l.pass = none := by
  obtain ⟨l, hl, hpass⟩ := hs.loop
  have hlt := (List.getElem?_eq_some_iff.mp hl).1
  have hkept {r : Registry} (h : r.calls[0]? = d.registry.calls[0]?) :
      ∃ l, r.calls[0]? = some (.sweepLoop l) ∧ l.pass = none := ⟨l, h.trans hl, hpass⟩
  cases move with
  | subscribe name q =>
    cases he : d.lookup? name with
    | none => exact hkept (getElem?_of_append (subscribe_of_free hs he _).1.calls hlt)
    | some e =>
      rw [perform, subscribe_of_taken he]
      exact hkept rfl
  | act name deed =>
    cases he : d.lookup? name with
    | none =>
      simp only [perform, act, he]
      exact hkept rfl
    | some e =>
      rw [perform, act_of_entry he]
      exact hkept (clock_of_confined hs he (hs.confined he deed))
  | publishLive b => exact hkept (sameCalls_publishLive d.registry b).2
  | cancel token => exact hkept rfl
  | sweep => exact hkept (sameCalls_sweep hs.settled hs.hooks hl).2
  | sweepDue =>
    show ∃ l, (d.registry.run d.registry.sweepDueActions).calls[0]? = some (.sweepLoop l) ∧ _
    by_cases hdue : l.next ≤ d.registry.nanos
    · rw [(visits_sweepDue hs.settled hs.hooks hl hpass hs.running hdue).2,
        List.getElem?_set_self hlt]
      exact ⟨_, rfl, rfl⟩
    · rw [run_sweepDue_of_early hl hpass hs.running hdue]
      exact hkept rfl
  | elapse ms => exact hkept rfl

/-- What a name gets is apart from what the others have. -/
theorem apart_perform (hs : Sound config d) (move : Move) :
    ∀ name other e f, name ≠ other → (d.perform move).lookup? name = some e →
      (d.perform move).lookup? other = some f →
        e.session ≠ f.session ∧ e.calls.Disjoint f.calls := by
  have hupdate {given : String} {g : Entry} (hg : ∀ other f, other ≠ given →
      d.lookup? other = some f → g.session ≠ f.session ∧ g.calls.Disjoint f.calls) :
      ∀ name other e f, name ≠ other → Function.update d.lookup? given (some g) name = some e →
        Function.update d.lookup? given (some g) other = some f →
          e.session ≠ f.session ∧ e.calls.Disjoint f.calls := by
    intro name other e f hne he hf
    by_cases hname : name = given
    · subst hname
      rw [Function.update_self] at he
      rw [Function.update_of_ne hne.symm] at hf
      obtain rfl := Option.some.inj he
      exact hg other f hne.symm hf
    · rw [Function.update_of_ne hname] at he
      by_cases hother : other = given
      · subst hother
        rw [Function.update_self] at hf
        obtain rfl := Option.some.inj hf
        obtain ⟨hsession, hcalls⟩ := hg name e hname he
        exact ⟨hsession.symm, List.disjoint_symm hcalls⟩
      · rw [Function.update_of_ne hother] at hf
        exact hs.apart name other e f hne he hf
  -- a new subscriber has a number that nobody had, and so has a new call
  rcases entry_perform hs move with hsame | ⟨given, _, hnew⟩ | ⟨given, g, deed, hg, hafter⟩
  · rw [hsame]
    exact hs.apart
  · rw [hnew]
    refine hupdate fun other f _ hf => ⟨?_, List.disjoint_nil_left _⟩
    obtain ⟨_, -, hstand⟩ := hs.like hf
    obtain ⟨x, _, hx, _⟩ := hstand.alike.twin
    exact ne_of_session?_eq_none (session?_length d.registry) hx
  · rw [hafter]
    refine hupdate fun other f hne hf => ?_
    obtain ⟨hsession, hcalls⟩ := hs.apart given other g f hne.symm hg hf
    obtain ⟨_, -, hstand⟩ := hs.like hf
    unfold Entry.after
    split
    · refine ⟨hsession, List.disjoint_append_left.mpr ⟨hcalls, ?_⟩⟩
      exact List.singleton_disjoint.mpr fun hmem => Nat.lt_irrefl _ (hstand.lt_length.1 _ hmem)
    · exact ⟨hsession, hcalls⟩

/-- A move is a list of actions of the registry. -/
theorem exists_run (d : Directory) (move : Move) :
    ∃ actions, (d.perform move).registry = d.registry.run actions := by
  cases move with
  | subscribe name q =>
    rw [perform, subscribe]
    split
    · exact ⟨[], rfl⟩
    · exact ⟨_, rfl⟩
  | act name deed =>
    rw [perform, act]
    split
    · exact ⟨[], rfl⟩
    · exact ⟨_, rfl⟩
  | publishLive b => exact ⟨[.publishLive b], rfl⟩
  | cancel token => exact ⟨[.cancel token], rfl⟩
  | sweep => exact ⟨_, rfl⟩
  | sweepDue => exact ⟨_, rfl⟩
  | elapse ms => exact ⟨[.elapse ms], rfl⟩

/-- Every name is like itself, and a move leaves it so. -/
theorem Sound.like_perform_self (hs : Sound config d) (name : String) (move : Move) :
    ∃ request, Like name request (d.perform move) (d.perform move) := by
  cases he : d.lookup? name with
  | some e =>
    obtain ⟨request, hlike, -⟩ := hs.like he
    refine ⟨request, like_perform hlike hs hs move fun hnone => ?_⟩
    rw [he] at hnone
    cases hnone
  | none =>
    -- whoever gets the name now was registered with this request
    refine ⟨(move.request? name).getD {}, like_perform (hs.like_of_none he _) hs hs move ?_⟩
    intro _ q hq
    rw [hq]
    rfl

theorem Sound.perform (hs : Sound config d) (move : Move) : Sound config (d.perform move) where
  settled := by
    obtain ⟨actions, hrun⟩ := exists_run d move
    rw [hrun]
    exact (reaches_run hs.settled fun action _ => action.keeps_any).settled
  gated := by
    obtain ⟨actions, hrun⟩ := exists_run d move
    rw [hrun]
    have hreaches := reaches_run hs.settled fun action (_ : action ∈ actions) => action.keeps_any
    exact hreaches.shifts.lane_induction Lane.gated_fresh (fun _ _ _ h => h.turn) hs.settled.sound
      hs.gated
  hooks := by
    obtain ⟨_, hlike⟩ := hs.like_perform_self "" move
    exact hlike.around.hooks.1
  running := by
    obtain ⟨_, hlike⟩ := hs.like_perform_self "" move
    exact hlike.around.running.1
  loop := loop_perform hs move
  stands name e he := by
    obtain ⟨request, hlike⟩ := hs.like_perform_self name move
    rcases hlike.entry with ⟨hnone, -⟩ | ⟨e', e'', he', he'', hstand⟩
    · rw [hnone] at he
      cases he
    · obtain rfl := Option.some.inj (he.symm.trans he')
      obtain rfl := Option.some.inj (he.symm.trans he'')
      exact ⟨request, hstand⟩
  apart := apart_perform hs move

theorem sound_new (config : Config) : Sound config { registry := .new config {} } where
  settled := settled_new rfl rfl
  gated s x hx := by
    rw [session?_new] at hx
    cases hx
  hooks := (new_idle config {}).1
  running := (new_idle config {}).2.1
  loop := by
    rw [(new_idle config {}).2.2.2]
    exact ⟨_, rfl, rfl⟩
  stands := nofun
  apart := nofun

/-! ### Whole runs -/

/-- A name is free as long as nobody was registered under it. -/
theorem entry_perform_eq_none_iff (hs : Sound config d) (move : Move) :
    (d.perform move).lookup? name = none ↔
      d.lookup? name = none ∧ move.request? name = none := by
  have hother (h : (d.perform move).lookup? name = d.lookup? name) (hm : move.request? name = none) :
      (d.perform move).lookup? name = none ↔ d.lookup? name = none ∧ move.request? name = none := by
    rw [h, hm]
    exact (and_iff_left rfl).symm
  cases move with
  | subscribe other q =>
    by_cases hname : other = name
    · subst hname
      -- the name is taken afterwards, by the one who comes in or by another
      have htaken : ∃ e, (d.perform (.subscribe other q)).lookup? other = some e := by
        cases he : d.lookup? other with
        | none =>
          refine ⟨{ session := d.registry.sessions.length }, ?_⟩
          rw [perform, (subscribe_of_free hs he _).2, Function.update_self]
        | some e =>
          rw [perform, subscribe_of_taken he]
          exact ⟨e, he⟩
      obtain ⟨e, he⟩ := htaken
      simp [he, Move.request?]
    · exact hother (passesBy_subscribe hs hname _).entry (if_neg hname)
  | act other deed =>
    by_cases hname : other = name
    · subst hname
      rcases he : d.lookup? other with _ | e
      · have hsame : (d.perform (.act other deed)).lookup? other = none := by
          simp only [perform, act, he]
        exact iff_of_true hsame ⟨rfl, rfl⟩
      · have htaken : (d.perform (.act other deed)).lookup? other =
            some (e.after d.registry deed) := by
          rw [perform, act_of_entry he]
          exact Function.update_self ..
        simp [htaken]
    · exact hother (passesBy_act hs hname deed).entry rfl
  | publishLive b => exact hother rfl rfl
  | cancel token => exact hother rfl rfl
  | sweep => exact hother rfl rfl
  | sweepDue => exact hother rfl rfl
  | elapse ms => exact hother rfl rfl

/-- The moves that do not concern a name may be left out. -/
theorem like_sharing (h : Like name request d d') (hs : Sound config d) (hs' : Sound config d')
    (hgone : ∀ t, request.token = some t → t ∈ d.registry.cancelledTokens → gone = true)
    (hfirst : d.lookup? name = none →
      ∀ q, moves.findSome? (Move.request? name) = some q → q = request) :
    Like name request (moves.foldl perform d)
      ((Move.sharing name request gone moves).foldl perform d') := by
  -- `gone` keeps track of the signal of the subscriber, which decides whether sweeps concern it
  induction moves generalizing d d' gone with
  | nil => exact h
  | cons move rest ih =>
    have hgone' : ∀ t, request.token = some t →
        t ∈ (d.perform move).registry.cancelledTokens →
          (gone || move.cancels request) = true := by
      intro t ht hmem
      rcases steady_perform hs move with hsteady | ⟨token, rfl⟩ | ⟨ms, rfl⟩
      · rw [hsteady.tokens] at hmem
        rw [hgone t ht hmem, Bool.true_or]
      · rcases List.mem_cons.mp hmem with rfl | hmem
        · simp [Move.cancels, ht]
        · rw [hgone t ht hmem, Bool.true_or]
      · rw [hgone t ht hmem, Bool.true_or]
    have hfirst' : (d.perform move).lookup? name = none →
        ∀ q, rest.findSome? (Move.request? name) = some q → q = request := by
      intro hnone q hq
      obtain ⟨hfree, hmove⟩ := (entry_perform_eq_none_iff hs move).mp hnone
      exact hfirst hfree q (by rw [List.findSome?_cons, hmove]; exact hq)
    rw [Move.sharing, List.foldl_cons]
    -- a move of the share is made in both directories, any other one in the first only
    split
    · rw [List.foldl_cons]
      refine ih (like_perform h hs hs' move ?_) (hs.perform move) (hs'.perform move) hgone' hfirst'
      intro hnone q hq
      exact hfirst hnone q (by rw [List.findSome?_cons, hq])
    · rename_i hm
      exact ih (like_perform_left h hs hgone (Bool.not_eq_true _ ▸ hm)) (hs.perform move) hs' hgone'
        hfirst'

theorem foldl_perform_eq_none_iff (hs : Sound config d) :
    (moves.foldl perform d).lookup? name = none ↔
      d.lookup? name = none ∧ moves.findSome? (Move.request? name) = none := by
  induction moves generalizing d with
  | nil => simp
  | cons move rest ih =>
    rw [List.foldl_cons, ih (hs.perform move), entry_perform_eq_none_iff hs, List.findSome?_cons]
    cases move.request? name with
    | none => simp
    | some q => simp

/-- What stands as it would looks as it would. -/
theorem Like.outlook?_eq (h : Like name request d d') : d.outlook? name = d'.outlook? name := by
  rcases h.entry with ⟨hnone, hnone'⟩ | ⟨e, e', he, he', hstand⟩
  · rw [outlook?, outlook?, hnone, hnone']
    rfl
  · obtain ⟨x, x', hx, hx', ht⟩ := hstand.alike.twin
    simp only [outlook?, he, he', Option.bind_some, hx, hx', Option.map_some, hstand.alike.begun]
    cases ht
    rfl

/-- Subscribers do not notice each other: what is seen of a subscriber after any list of moves is
what is seen of it after those that concern its name. The list may end anywhere in a run, so that
this holds after each of its moves, and two runs that give a name the same share look the same to
it. -/
theorem isolated (config : Config) (name : String) (moves : List Move) :
    (play config moves).outlook? name = (play config (Move.share name moves)).outlook? name := by
  have hs := sound_new config
  unfold Move.share
  cases hrequest : moves.findSome? (Move.request? name) with
  | some request =>
    refine Like.outlook?_eq (like_sharing (hs.like_of_none rfl request) hs hs ?_ ?_)
    · intro t _ hmem
      rw [(new_idle config {}).2.2.1] at hmem
      cases hmem
    · intro _ q hq
      exact Option.some.inj (hq.symm.trans hrequest)
  | none =>
    have hfree : (play config moves).lookup? name = none :=
      (foldl_perform_eq_none_iff hs).mpr ⟨rfl, hrequest⟩
    simp only [outlook?, hfree]
    rfl

/-- The write to another subscriber never ends. -/
example :
    let moves : List Move := [
      .subscribe "one" { filter := fun item => item.id < 9, unused := rfl },
      .subscribe "other" { sink := .scripted [.hold], unused := rfl },
      .act "one" .activate, .act "other" .activate,
      .publishLive ⟨[⟨7, ""⟩]⟩, .publishLive ⟨[⟨9, ""⟩]⟩,
      .act "other" .work, .act "other" .work, .act "other" .work,
      .act "one" .work, .act "one" .work, .act "one" .work]
    (play {} moves).outlook? "one" =
        some ⟨[(.live, ⟨[⟨7, ""⟩]⟩)], ⟨some 7⟩, some ⟨[⟨7, ""⟩]⟩, 1, [], .active⟩ ∧
      (play {} moves).outlook? "other" =
        some ⟨[(.live, ⟨[⟨7, ""⟩]⟩)], ⟨none⟩, none, 0, [⟨[⟨9, ""⟩]⟩], .active⟩ := by
  decide +kernel

end Directory

end Multicast
