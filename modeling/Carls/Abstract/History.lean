import Carls.Abstract.Sizes

/-!
# Requests That Arrive over Time

`sections_linearizable` admits every request at once. Here requests arrive at
any point of a run, as `Step` lets them. A run is a list of events, each the
arrival of a request or one section of the handler of the `i`-th request to
have arrived (`History.next`). Every event is a step of `Step`, and every step
of `Step` is an event (`History.step_next`, `History.exists_next`), so the
runs are exactly the interleavings.

Besides the registry and the handlers, a history keeps two ghost fields: the
requests in the order they arrived, and the order in which they took effect.
A request takes effect at the section after which its handler first has a
reply to return (`Stage.outcome`), or at its arrival when its checks fail.
Along a run the order only grows at its end (`History.exec_order`).

For requests with at most one writing section, every run that takes them all
to the end is linearizable (`history_linearizable`). Serving the requests one
after another, in the order they took effect, returns each one the status and
the answer its handler returned and leaves the tables the final registry
implements; and a request that returned before another arrived took effect
before it. `KnowledgeBankSize` is left out: it counts the sessions of
requests that have started but not yet taken effect, and its place in a
serial run (`Abstract.Sizes`) may have to come after a request that arrived
after it returned (`history_count_breaks_realTime`).

## Main definitions

* `Event`: A request arrives, or a handler runs one section.
* `History`, `History.next`, `History.exec`: A run, one event on, and a list
  of events on.
* `History.outcome`: The reply a request's handler has to return.
* `History.linearization`: The requests in the order they took effect.
* `History.Linearizes`: The invariant of a run.
* `readA`, `writeA`, `countBeforeWrite`, `countBeforeWriteEvents`: A run in
  which a count returns before an update arrives, yet has to come after it.

## Theorems

* `History.step_next`, `History.exists_next`: The events are the steps of
  `Step`.
* `History.exec_order`: The order only grows.
* `Linearized.arrive`: An arrival, on the invariant of the sections.
* `History.Linearizes.of_same`, `History.Linearizes.of_append`: An event
  that takes no effect, and one after which a request takes effect.
* `History.Linearizes.next`: One event keeps the invariant.
* `history_linearizable`: Every complete run is linearizable.
* `history_count_breaks_realTime`: With `KnowledgeBankSize`, real time can
  be lost.
-/

namespace Carls

/-- What happens next in the service: a request arrives, or the handler of
    the `i`-th request to have arrived runs one section. -/
inductive Event (K G V : Type)
  | arrive (rq : Request K G V)
  | run (i : Nat)

/-- An event other than the arrival of an `Update` with both values and
    gradients or of a `KnowledgeBankSize`. -/
def Event.atomic {K G V : Type} : Event K G V → Bool
  | .arrive rq => rq.atomic && !rq.countsSessions
  | .run _ => true

theorem Event.atomic_arrive {K G V : Type} {rq : Request K G V}
    (he : (Event.arrive rq).atomic = true) : rq.atomic = true ∧ rq.countsSessions = false := by
  simpa [Event.atomic] using he

/-- A run so far: the registry, the requests in the order they arrived, the
    handler of each, and the order in which they took effect. -/
structure History (K G σ ω V : Type) where
  registry : Registry σ ω
  requests : List (Request K G V)
  threads : List (Stage V)
  order : List Nat

section Lists

variable {α : Type}

theorem getElem?_middle (pre post : List α) (a : α) : (pre ++ a :: post)[pre.length]? = some a := by
  rw [List.getElem?_append_right (Nat.le_refl _), Nat.sub_self, List.getElem?_cons_zero]

theorem getElem?_append_singleton_ne (l : List α) (a : α) {j : Nat} (hj : j ≠ l.length) :
    (l ++ [a])[j]? = l[j]? := by
  rcases Nat.lt_or_gt_of_ne hj with h | h
  · exact List.getElem?_append_left h
  · rw [List.getElem?_eq_none (by simp only [List.length_append, List.length_singleton]; omega),
      List.getElem?_eq_none (by omega)]

theorem set_middle (a' : α) :
    ∀ (pre post : List α) (a : α), (pre ++ a :: post).set pre.length a' = pre ++ a' :: post
  | [], _, _ => rfl
  | x :: pre, post, a => congrArg (x :: ·) (set_middle a' pre post a)

theorem reverse_middle (pre post : List α) (a : α) :
    (pre ++ a :: post).reverse = post.reverse ++ a :: pre.reverse := by
  simp

/-- The orders of three different elements. -/
theorem eq_of_perm_three {a b c : α} {l : List α} (hp : l.Perm [a, b, c]) (hab : a ≠ b)
    (hac : a ≠ c) (hbc : b ≠ c) :
    l = [a, b, c] ∨ l = [a, c, b] ∨ l = [b, a, c] ∨ l = [b, c, a] ∨ l = [c, a, b] ∨
      l = [c, b, a] := by
  have hnd : l.Nodup := hp.nodup_iff.mpr (by simp [hab, hac, hbc])
  have hm : ∀ x, x ∈ l → x = a ∨ x = b ∨ x = c := fun x hx => by simpa using hp.subset hx
  match l, hp.length_eq with
  | [x, y, z], _ =>
    rcases hm x (by simp) with rfl | rfl | rfl <;> rcases hm y (by simp) with rfl | rfl | rfl <;>
      rcases hm z (by simp) with rfl | rfl | rfl <;> simp_all

theorem exists_middle_of_getElem? {l : List α} {i : Nat} {a : α} (h : l[i]? = some a) :
    ∃ pre post, l = pre ++ a :: post ∧ pre.length = i := by
  obtain ⟨hi, rfl⟩ := List.getElem?_eq_some_iff.mp h
  exact ⟨l.take i, l.drop (i + 1), by rw [← List.drop_eq_getElem_cons hi, List.take_append_drop],
    by simp [hi.le]⟩

end Lists

namespace History

variable {K G σ ω V : Type} (b : Backend K G σ ω V)

/-- A history on registry `reg`, before any request. -/
def init (reg : Registry σ ω) : History K G σ ω V := ⟨reg, [], [], []⟩

/-- The configuration of `Step` a history stands at: the newest handler
    first. -/
def config (H : History K G σ ω V) : Config σ ω V := ⟨H.registry, H.threads.reverse⟩

/-- The order, with request `k` added when its handler has just taken
    effect: it had no reply to return, and now has one. -/
def takeEffect {α : Type} (order : List Nat) (k : Nat) (before after : Option α) : List Nat :=
  if before.isNone && after.isSome then order ++ [k] else order

/-- One event on; `none` when the handler it names has no section to run. -/
def next (H : History K G σ ω V) : Event K G V → Option (History K G σ ω V)
  | .arrive rq => some ⟨H.registry, H.requests ++ [rq], H.threads ++ [rq.entry b],
      takeEffect H.order H.threads.length none (rq.entry b).outcome⟩
  | .run i =>
    match H.threads[i]? with
    | none => none
    | some s => (s.step b H.registry).map fun p =>
        ⟨p.2, H.requests, H.threads.set i p.1, takeEffect H.order i s.outcome p.1.outcome⟩

/-- A list of events on. -/
def exec : History K G σ ω V → List (Event K G V) → Option (History K G σ ω V)
  | H, [] => some H
  | H, e :: es => (H.next b e).bind fun H' => exec H' es

variable {b}

/-- The reply the handler of the `k`-th request has to return, if it has
    one. -/
def outcome (H : History K G σ ω V) (k : Nat) : Option (Status × Answer V) :=
  H.threads[k]?.bind Stage.outcome

/-- The requests in the order they took effect. -/
def linearization (H : History K G σ ω V) : List (Request K G V) :=
  H.order.filterMap fun k => H.requests[k]?

theorem takeEffect_same {α : Type} (order : List Nat) (k : Nat) (o : Option α) :
    takeEffect order k o o = order := by
  cases o <;> rfl

theorem prefix_takeEffect {α : Type} (order : List Nat) (k : Nat) (o o' : Option α) :
    order <+: takeEffect order k o o' := by
  unfold takeEffect
  split_ifs
  exacts [List.prefix_append _ _, List.prefix_refl _]

/-- What a section event can do. -/
theorem next_run_cases {H H' : History K G σ ω V} {i : Nat} (h : H.next b (.run i) = some H') :
    ∃ s s' reg', H.threads[i]? = some s ∧ s.step b H.registry = some (s', reg') ∧
      H' = ⟨reg', H.requests, H.threads.set i s', takeEffect H.order i s.outcome s'.outcome⟩ := by
  simp only [next] at h
  split at h
  · cases h
  · rename_i s hs
    obtain ⟨⟨s', reg'⟩, hstep, rfl⟩ := Option.map_eq_some'.mp h
    exact ⟨s, s', reg', hs, hstep, rfl⟩

/-- Every event is a step of `Step`. -/
theorem step_next {H H' : History K G σ ω V} {e : Event K G V} (h : H.next b e = some H') :
    Step b H.config H'.config := by
  cases e with
  | arrive rq =>
    cases Option.some.inj h
    simp only [config, List.reverse_append]
    exact .spawn _ _ rq
  | run i =>
    obtain ⟨s, s', reg', hs, hstep, rfl⟩ := next_run_cases h
    obtain ⟨pre, post, e, rfl⟩ := exists_middle_of_getElem? hs
    simp only [config, e, set_middle, reverse_middle]
    exact .run _ _ hstep

/-- Every step of `Step` is an event. -/
theorem exists_next (H : History K G σ ω V) {c : Config σ ω V} (h : Step b H.config c) :
    ∃ e H', H.next b e = some H' ∧ H'.config = c := by
  generalize hc : H.config = c₀ at h
  cases h with
  | spawn reg threads rq =>
    simp only [config, Config.mk.injEq] at hc
    obtain ⟨rfl, rfl⟩ := hc
    exact ⟨.arrive rq, _, rfl, by simp [config]⟩
  | @run reg reg' s s' pre post hs =>
    simp only [config, Config.mk.injEq] at hc
    obtain ⟨rfl, hr⟩ := hc
    have e : H.threads = post.reverse ++ s :: pre.reverse := by
      rw [← List.reverse_reverse H.threads, hr, reverse_middle]
    have hi : H.threads[post.reverse.length]? = some s := by rw [e, getElem?_middle]
    refine ⟨.run post.reverse.length, _, by simp only [next, hi, hs]; rfl, ?_⟩
    simp only [config, e, set_middle, reverse_middle, List.reverse_reverse]

theorem exec_append (H : History K G σ ω V) (es₁ es₂ : List (Event K G V)) :
    H.exec b (es₁ ++ es₂) = (H.exec b es₁).bind fun H' => H'.exec b es₂ := by
  induction es₁ generalizing H with
  | nil => rfl
  | cons e es ih =>
    rw [List.cons_append]
    simp only [exec, Option.bind_assoc, ih]

/-- What every event of a run keeps holds all along the run. -/
theorem exec_induction (P : History K G σ ω V → Prop) {es : List (Event K G V)}
    {H H' : History K G σ ω V} (hP : P H)
    (hnext : ∀ {H₁ H₂ : History K G σ ω V} {e : Event K G V}, e ∈ es → P H₁ →
      H₁.next b e = some H₂ → P H₂)
    (h : H.exec b es = some H') : P H' := by
  induction es generalizing H with
  | nil =>
    cases Option.some.inj h
    exact hP
  | cons e es ih =>
    obtain ⟨H₁, h₁, h₂⟩ := Option.bind_eq_some.mp h
    exact ih (hnext (List.mem_cons_self _ _) hP h₁)
      (fun he => hnext (List.mem_cons_of_mem _ he)) h₂

theorem next_order {H H' : History K G σ ω V} {e : Event K G V} (h : H.next b e = some H') :
    H.order <+: H'.order := by
  cases e with
  | arrive rq =>
    cases Option.some.inj h
    exact prefix_takeEffect _ _ _ _
  | run i =>
    obtain ⟨s, s', reg', -, -, rfl⟩ := next_run_cases h
    exact prefix_takeEffect _ _ _ _

/-- Along a run, the order in which the requests took effect only grows at
    its end. -/
theorem exec_order {H H' : History K G σ ω V} {es : List (Event K G V)}
    (h : H.exec b es = some H') : H.order <+: H'.order :=
  exec_induction (fun H₁ => H.order <+: H₁.order) (List.prefix_refl _)
    (fun _ h₁ h₂ => h₁.trans (next_order h₂)) h

end History

section Order

variable {β : Type} {f f' : Nat → Option β} {order : List Nat} {k : Nat}

/-- A request that has just taken effect joins the order: it lists the
    requests with a reply, each once. -/
theorem mem_append_singleton_iff (hmem : ∀ j, j ∈ order ↔ (f j).isSome) (hk : (f' k).isSome)
    (hne : ∀ j, j ≠ k → f' j = f j) (j : Nat) : j ∈ order ++ [k] ↔ (f' j).isSome := by
  by_cases e : j = k
  · subst e
    simp [hk]
  · simp [e, hne j e, hmem]

theorem nodup_append_singleton (hnd : order.Nodup) (hmem : ∀ j, j ∈ order ↔ (f j).isSome)
    (hk : f k = none) : (order ++ [k]).Nodup :=
  List.nodup_append.mpr ⟨hnd, List.nodup_singleton k,
    List.disjoint_singleton.mpr (by simp [hmem, hk])⟩

theorem map_append_singleton {sts : List β} {st : β}
    (hmem : ∀ j, j ∈ order ↔ (f j).isSome) (hk : f k = none) (hne : ∀ j, j ≠ k → f' j = f j)
    (hmap : order.map f = sts.map some) (hk' : f' k = some st) :
    (order ++ [k]).map f' = (sts ++ [st]).map some := by
  have hk'' : k ∉ order := by simp [hmem, hk]
  rw [List.map_append, List.map_append, List.map_congr_left fun j hj => hne j fun e => hk'' (e ▸ hj),
    hmap, List.map_singleton, hk']
  rfl

end Order

section Invariant

variable {K G σ ω V : Type} (b : Backend K G σ ω V) (view : σ → String → Option V)
  (init : String → V) (rule : V → V → V)

/-- The invariant of a run of atomic requests from tables `A`. -/
structure History.Linearizes (A : Tables V) (H : History K G σ ω V) : Prop where
  /-- Every request that arrived has at most one writing section, and none
      is a `KnowledgeBankSize`. -/
  atomic : ∀ rq ∈ H.requests, rq.atomic = true ∧ rq.countsSessions = false
  /-- The handlers, the registry and the requests in the order they took
      effect keep the invariant of the sections. -/
  linearized : Linearized b view init rule A H.requests H.registry H.threads H.linearization
  /-- The order lists the requests whose handler has a reply to return,
      each once. -/
  nodup : H.order.Nodup
  mem_order : ∀ k, k ∈ H.order ↔ (H.outcome k).isSome
  /-- Along the order, each handler has the status and the answer the serial
      run returns its request. -/
  results : H.order.map H.outcome =
    ((b.design view init rule).results A H.linearization).map some

variable {b view init rule}

/-- An arrival keeps the invariant of the sections: the request passes its
    checks and waits for its start, or fails them and takes effect at once,
    with the tables unchanged. -/
theorem Linearized.arrive {A : Tables V} {rqs : List (Request K G V)} {reg : Registry σ ω}
    {ts : List (Stage V)} {lin : List (Request K G V)}
    (hl : Linearized b view init rule A rqs reg ts lin) (rq : Request K G V) :
    ((rq.entry b).outcome = none ∧
      Linearized b view init rule A (rqs ++ [rq]) reg (ts ++ [rq.entry b]) lin) ∨
    ((rq.entry b).outcome = some ((b.design view init rule).serve
        ((b.design view init rule).serveAll A lin) rq).result ∧
      Linearized b view init rule A (rqs ++ [rq]) reg (ts ++ [rq.entry b]) (lin ++ [rq])) := by
  have hlen := hl.inFlight.length_eq
  have hflight := List.rel_append hl.inFlight (.cons (.entry rq) .nil)
  have hP : (ts ++ [rq.entry b]).filterMap Stage.pendingHandle =
      ts.filterMap Stage.pendingHandle := by
    simp [List.filterMap_append, pendingHandle_entry]
  cases ho : (rq.entry b).outcome with
  | none =>
    refine .inl ⟨rfl, hflight, ?_, hP ▸ hl.tables, hP ▸ hl.optimizers⟩
    rw [linearized_middle hlen, ho]
    simpa [linearized] using hl.perm
  | some o =>
    obtain ⟨st, resp, he, rfl⟩ := eq_done_of_outcome_entry b ho
    obtain ⟨hst, hY⟩ : ((b.design view init rule).serve
        ((b.design view init rule).serveAll A lin) rq).result = (st, resp.answer) ∧
        ((b.design view init rule).serve
          ((b.design view init rule).serveAll A lin) rq).tables =
          (b.design view init rule).serveAll A lin :=
      serve_of_entry_done rule he
    have hserve : (b.design view init rule).serveAll A (lin ++ [rq]) =
        (b.design view init rule).serveAll A lin := by
      rw [Design.serveAll_append_singleton, hY]
    refine .inr ⟨by rw [hst], hflight, ?_, hP ▸ hserve ▸ hl.tables, hP ▸ hl.optimizers⟩
    rw [Design.results_append_singleton, List.zip_append (Design.length_results _ _ _).symm,
      linearized_middle hlen, ho, hst]
    simpa [linearized] using hl.perm.append_right [(rq, (st, resp.answer))]

namespace History

variable {A : Tables V}

theorem linearizes_init {reg₀ : Registry σ ω} (hi : Implements b view reg₀ A) :
    (History.init reg₀ : History K G σ ω V).Linearizes b view init rule A :=
  ⟨fun _ h => absurd h (List.not_mem_nil _), linearized_start hi [], List.nodup_nil,
    fun k => by simp [History.init, outcome], rfl⟩

theorem Linearizes.lt_of_mem_order {H : History K G σ ω V}
    (hl : H.Linearizes b view init rule A) {k : Nat} (hk : k ∈ H.order) : k < H.requests.length := by
  rw [hl.linearized.inFlight.length_eq]
  have := (hl.mem_order k).mp hk
  cases e : H.threads[k]? with
  | none => simp [outcome, e] at this
  | some s => exact (List.getElem?_eq_some_iff.mp e).1

/-- An event after which no request takes effect keeps the invariant. -/
theorem Linearizes.of_same {H H' : History K G σ ω V} (hl : H.Linearizes b view init rule A)
    (hat : ∀ rq ∈ H'.requests, rq.atomic = true ∧ rq.countsSessions = false)
    (hL : Linearized b view init rule A H'.requests H'.registry H'.threads H.linearization)
    (hord : H'.order = H.order) (hout : H'.outcome = H.outcome)
    (hlin : H'.linearization = H.linearization) : H'.Linearizes b view init rule A :=
  ⟨hat, hlin ▸ hL, hord ▸ hl.nodup, by rw [hord, hout]; exact hl.mem_order,
    by rw [hord, hout, hlin]; exact hl.results⟩

/-- An event after which request `k`, that is `rq`, takes effect keeps the
    invariant: its handler has the reply the serial run returns it. -/
theorem Linearizes.of_append {H H' : History K G σ ω V} (hl : H.Linearizes b view init rule A)
    (hat : ∀ rq ∈ H'.requests, rq.atomic = true ∧ rq.countsSessions = false) {k : Nat}
    {rq : Request K G V}
    (hL : Linearized b view init rule A H'.requests H'.registry H'.threads
      (H.linearization ++ [rq]))
    (hord : H'.order = H.order ++ [k]) (hlin : H'.linearization = H.linearization ++ [rq])
    (hk : H.outcome k = none) (hne : ∀ j, j ≠ k → H'.outcome j = H.outcome j)
    (hk' : H'.outcome k = some ((b.design view init rule).serve
      ((b.design view init rule).serveAll A H.linearization) rq).result) :
    H'.Linearizes b view init rule A := by
  refine ⟨hat, hlin ▸ hL, ?_, ?_, ?_⟩
  · rw [hord]; exact nodup_append_singleton hl.nodup hl.mem_order hk
  · rw [hord]; exact mem_append_singleton_iff hl.mem_order (by rw [hk']; rfl) hne
  · rw [hord, hlin, Design.results_append_singleton]
    exact map_append_singleton hl.mem_order hk hne hl.results hk'

/-- An arrival keeps the invariant. -/
theorem Linearizes.arrive {H H' : History K G σ ω V} (hl : H.Linearizes b view init rule A)
    {rq : Request K G V} (hat : rq.atomic = true ∧ rq.countsSessions = false)
    (hreg : H'.registry = H.registry)
    (hrq : H'.requests = H.requests ++ [rq]) (hts : H'.threads = H.threads ++ [rq.entry b])
    (hord : H'.order = takeEffect H.order H.threads.length none (rq.entry b).outcome) :
    H'.Linearizes b view init rule A := by
  have hlen := hl.linearized.inFlight.length_eq
  -- The requests already in the order keep their place.
  have hlin : (H.order.filterMap fun k => H'.requests[k]?) = H.linearization := by
    rw [hrq]
    exact List.filterMap_congr fun k hk => List.getElem?_append_left (hl.lt_of_mem_order hk)
  have hne : ∀ j, j ≠ H.threads.length → H'.outcome j = H.outcome j :=
    fun j hj => by rw [outcome, hts, getElem?_append_singleton_ne _ _ hj]; rfl
  have hself : H'.outcome H.threads.length = (rq.entry b).outcome := by
    rw [outcome, hts, getElem?_middle H.threads [] (rq.entry b)]; rfl
  have hnone : H.outcome H.threads.length = none := by
    simp [outcome, List.getElem?_eq_none (Nat.le_refl _)]
  have hatomic : ∀ r ∈ H'.requests, r.atomic = true ∧ r.countsSessions = false := fun r hr => by
    rw [hrq] at hr
    rcases List.mem_append.mp hr with hr | hr
    · exact hl.atomic r hr
    · rw [List.mem_singleton.mp hr]; exact hat
  rcases hl.linearized.arrive rq with ⟨ho, hL⟩ | ⟨ho, hL⟩
  · -- The checks pass: nothing takes effect.
    have hord' : H'.order = H.order := by rw [hord, ho]; rfl
    refine hl.of_same hatomic (by rw [hreg, hrq, hts]; exact hL) hord' (funext fun j => ?_)
      (by rw [linearization, hord', hlin])
    exact if e : j = H.threads.length then by rw [e, hself, ho, hnone] else hne j e
  · -- The checks fail: the request takes effect at its arrival.
    have hord' : H'.order = H.order ++ [H.threads.length] := by rw [hord, ho]; rfl
    refine hl.of_append hatomic (by rw [hreg, hrq, hts]; exact hL) hord' ?_ hnone hne
      (hself.trans ho)
    rw [linearization, hord', List.filterMap_append, hlin, hrq, ← hlen]
    simp only [List.filterMap_cons, List.filterMap_nil, getElem?_middle H.requests [] rq]

/-- A section keeps the invariant. -/
theorem Linearizes.run (hb : MapSemantics b view init) (happly : PairwiseApply b rule)
    {H H' : History K G σ ω V} (hl : H.Linearizes b view init rule A) {i : Nat} {s s' : Stage V}
    (hs : H.threads[i]? = some s) (hstep : s.step b H.registry = some (s', H'.registry))
    (hrq : H'.requests = H.requests) (hts : H'.threads = H.threads.set i s')
    (hord : H'.order = takeEffect H.order i s.outcome s'.outcome) :
    H'.Linearizes b view init rule A := by
  have hlen := hl.linearized.inFlight.length_eq
  obtain ⟨pre, post, e, rfl⟩ := exists_middle_of_getElem? hs
  have hlt : pre.length < H.requests.length := by rw [hlen, e]; simp
  obtain ⟨rq, hrq'⟩ : ∃ rq, H.requests[pre.length]? = some rq := ⟨_, List.getElem?_eq_getElem hlt⟩
  obtain ⟨rpre, rpost, er, hr⟩ := exists_middle_of_getElem? hrq'
  have hL := hl.linearized
  rw [e, er] at hL
  have hne : ∀ j, j ≠ pre.length → H'.outcome j = H.outcome j :=
    fun j hj => by rw [outcome, hts, List.getElem?_set_ne (Ne.symm hj)]; rfl
  have hself : H'.outcome pre.length = s'.outcome := by
    rw [outcome, hts, e, set_middle, getElem?_middle]; rfl
  have hold : H.outcome pre.length = s.outcome := by rw [outcome, hs]; rfl
  have hthreads : H'.threads = pre ++ s' :: post := by rw [hts, e, set_middle]
  have hat := hl.atomic _ (er ▸ List.mem_append_right _ (List.mem_cons_self _ _))
  rcases hL.step hb (fun _ => happly) hat.1 hat.2 hr hstep with ⟨hout, hL'⟩ | ⟨hnone, hout, hL'⟩
  · -- The section takes no effect.
    have hord' : H'.order = H.order := by rw [hord, hout, takeEffect_same]
    refine hl.of_same (hrq ▸ hl.atomic) (by rw [hrq, hthreads, er]; exact hL') hord'
      (funext fun j => ?_) (by rw [linearization, hord', hrq]; rfl)
    exact if ej : j = pre.length then by rw [ej, hself, hout, hold] else hne j ej
  · -- The linearizing section: the request takes effect.
    have hord' : H'.order = H.order ++ [pre.length] := by rw [hord, hnone, hout]; rfl
    refine hl.of_append (hrq ▸ hl.atomic) (by rw [hrq, hthreads, er]; exact hL') hord' ?_
      (hold.trans hnone) hne (hself.trans hout)
    rw [linearization, hord', hrq, List.filterMap_append]
    simp only [List.filterMap_cons, List.filterMap_nil, hrq']
    rfl

/-- One event of an atomic request keeps the invariant. -/
theorem Linearizes.next (hb : MapSemantics b view init) (happly : PairwiseApply b rule)
    {H H' : History K G σ ω V} (hl : H.Linearizes b view init rule A) {e : Event K G V}
    (he : e.atomic = true) (h : H.next b e = some H') : H'.Linearizes b view init rule A := by
  cases e with
  | arrive rq =>
    cases Option.some.inj h
    exact hl.arrive (Event.atomic_arrive he) rfl rfl rfl rfl
  | run i =>
    obtain ⟨s, s', reg', hs, hstep, rfl⟩ := next_run_cases h
    exact hl.run hb happly hs hstep rfl rfl rfl

end History

end Invariant

/-- Requests with at most one writing section other than `KnowledgeBankSize`,
    arriving at any point of a run on a registry that implements tables `A`,
    for a store that behaves as a finite map and a pairwise optimizer: every
    run that takes them all to the end is linearizable. The order in which
    they took effect lists every request once. Serving the requests one after
    another in that order returns each one the status and the answer its
    handler returned, and leaves the tables the final registry implements.
    And a request that had returned at some point of the run comes before
    every request that had not yet arrived then. -/
theorem history_linearizable {K G σ ω V : Type} (b : Backend K G σ ω V)
    (view : σ → String → Option V) (init : String → V) (rule : V → V → V)
    (hb : MapSemantics b view init) (happly : PairwiseApply b rule) {reg₀ : Registry σ ω}
    {A : Tables V} (hi : Implements b view reg₀ A) {es : List (Event K G V)}
    (hat : ∀ e ∈ es, e.atomic = true) {H : History K G σ ω V}
    (hrun : (History.init reg₀).exec b es = some H) (hdone : ∀ s ∈ H.threads, s.finished = true) :
    H.order.Perm (List.range H.requests.length) ∧
    H.order.map (fun k => H.threads[k]?.bind Stage.reply) =
      ((b.design view init rule).results A H.linearization).map some ∧
    Implements b view H.registry ((b.design view init rule).serveAll A H.linearization) ∧
    ∀ es₁ es₂ H₁, es = es₁ ++ es₂ → (History.init reg₀).exec b es₁ = some H₁ →
      ∀ i j, (∃ st resp, H₁.threads[i]? = some (.done st resp)) → H₁.requests.length ≤ j →
        j < H.requests.length → ∃ o₁ o₂, H.order = o₁ ++ o₂ ∧ i ∈ o₁ ∧ j ∈ o₂ := by
  have hinv : ∀ {es' : List (Event K G V)} {H' : History K G σ ω V},
      (∀ e ∈ es', e.atomic = true) → (History.init reg₀).exec b es' = some H' →
      H'.Linearizes b view init rule A := fun hat' h =>
    History.exec_induction _ (History.linearizes_init hi)
      (fun he hl hn => hl.next hb happly (hat' _ he) hn) h
  have hl := hinv hat hrun
  have hlen := hl.linearized.inFlight.length_eq
  -- Every handler has returned, so its reply is the one it had to return.
  have hthread : ∀ k ∈ H.order, H.threads[k]?.bind Stage.reply = H.outcome k := fun k _ => by
    cases hk : H.threads[k]? with
    | none => simp [History.outcome, hk]
    | some s =>
      obtain ⟨st, resp, rfl⟩ :=
        Stage.eq_done_of_finished (hdone s (List.mem_iff_getElem?.mpr ⟨k, hk⟩))
      simp [History.outcome, hk, Stage.outcome, Stage.reply]
  have hsome : ∀ k, k < H.requests.length → (H.outcome k).isSome := fun k hk => by
    rw [hlen] at hk
    obtain ⟨st, resp, e⟩ := Stage.eq_done_of_finished (hdone _ (List.getElem_mem hk))
    simp [History.outcome, List.getElem?_eq_getElem hk, e, Stage.outcome]
  refine ⟨(List.perm_ext_iff_of_nodup hl.nodup (List.nodup_range _)).mpr fun k => ?_, ?_, ?_, ?_⟩
  · rw [hl.mem_order, List.mem_range]
    exact ⟨fun h => hl.lt_of_mem_order ((hl.mem_order k).mpr h), hsome k⟩
  · rw [List.map_congr_left hthread]
    exact hl.results
  · exact (hl.linearized.finished hdone).2
  · -- Real time: the order only grows at its end, and a request that has
    -- returned is in it before one that has not arrived can be.
    rintro es₁ es₂ H₁ rfl h₁ i j ⟨st, resp, hi⟩ hj hj'
    have hl₁ := hinv (fun e he => hat e (List.mem_append_left _ he)) h₁
    rw [History.exec_append, h₁, Option.some_bind] at hrun
    obtain ⟨o, ho⟩ := History.exec_order hrun
    have hjo : j ∉ H₁.order := fun hm => by
      have := (hl₁.mem_order j).mp hm
      rw [hl₁.linearized.inFlight.length_eq] at hj
      simp [History.outcome, List.getElem?_eq_none hj] at this
    refine ⟨H₁.order, o, ho.symm,
      (hl₁.mem_order i).mpr (by simp [History.outcome, hi, Stage.outcome]), ?_⟩
    have hjH : j ∈ H.order := (hl.mem_order j).mpr (hsome j hj')
    rw [← ho] at hjH
    exact (List.mem_append.mp hjH).resolve_left hjo

/-- The updates of `twoUpdates` arrive, then run as in `twoUpdates_sections`. -/
def twoUpdatesEvents : List (Event Unit Unit Int) :=
  twoUpdates.map .arrive ++ [.run 0, .run 1, .run 1, .run 0, .run 1, .run 0]

/-- The history `twoUpdatesEvents` leaves: the update that writes values took
    effect first. -/
def twoUpdatesHistory : History Unit Unit (String → Option Int) Unit Int :=
  ⟨twoUpdatesRegistry, twoUpdates, [.done Status.OK .update, .done Status.OK .update], [0, 1]⟩

theorem twoUpdatesEvents_exec :
    (History.init Registry.empty).exec okBackend twoUpdatesEvents = some twoUpdatesHistory :=
  rfl

/-- Both updates of `twoUpdatesEvents`, on a fresh service. -/
theorem history_linearizable_twoUpdates :
    MapSemantics okBackend id (fun _ => 0) ∧ PairwiseApply okBackend (· - ·) ∧
    Implements okBackend id (Registry.empty : Registry (String → Option Int) Unit) ∅ ∧
    (∀ e ∈ twoUpdatesEvents, e.atomic = true) ∧
    (History.init Registry.empty).exec okBackend twoUpdatesEvents = some twoUpdatesHistory ∧
    (∀ s ∈ twoUpdatesHistory.threads, s.finished = true) ∧
    twoUpdatesHistory.order.Perm (List.range twoUpdatesHistory.requests.length) ∧
    twoUpdatesHistory.order.map (fun k => twoUpdatesHistory.threads[k]?.bind Stage.reply) =
      ((okBackend.design id (fun _ => 0) (· - ·)).results ∅
        twoUpdatesHistory.linearization).map some ∧
    Implements okBackend id twoUpdatesHistory.registry
      ((okBackend.design id (fun _ => 0) (· - ·)).serveAll ∅ twoUpdatesHistory.linearization) ∧
    ∀ es₁ es₂ H₁, twoUpdatesEvents = es₁ ++ es₂ →
      (History.init Registry.empty).exec okBackend es₁ = some H₁ →
      ∀ i j, (∃ st resp, H₁.threads[i]? = some (.done st resp)) → H₁.requests.length ≤ j →
        j < twoUpdatesHistory.requests.length →
        ∃ o₁ o₂, twoUpdatesHistory.order = o₁ ++ o₂ ∧ i ∈ o₁ ∧ j ∈ o₂ :=
  have hat : ∀ e ∈ twoUpdatesEvents, e.atomic = true := by decide
  have hdone : ∀ s ∈ twoUpdatesHistory.threads, s.finished = true := by decide
  ⟨okBackend_mapSemantics, okBackend_pairwiseApply, implements_empty, hat, twoUpdatesEvents_exec,
    hdone, history_linearizable okBackend id (fun _ => 0) (· - ·) okBackend_mapSemantics
      okBackend_pairwiseApply implements_empty hat twoUpdatesEvents_exec hdone⟩

/-- A pure lookup of key `a` of `emb`. -/
def readA : Request Unit Unit Int := .lookup ⟨"emb", ["a"], false⟩

/-- An update that writes 5 at key `a` of `emb`. -/
def writeA : Request Unit Unit Int := .update ⟨"emb", (∅ : ProtoMap Int).insert "a" 5, ∅⟩

/-- `readA`, a count of sessions, and `writeA`, in the order they arrive. -/
def countBeforeWrite : List (Request Unit Unit Int) := [readA, .knowledgeBankSize, writeA]

/-- The lookup arrives and its start makes `emb`; the count arrives, reads
    one session and returns; only then does the update arrive, and it runs to
    the end; last, the lookup's section reads what the update wrote. -/
def countBeforeWriteEvents : List (Event Unit Unit Int) :=
  [.arrive readA, .run 0, .arrive .knowledgeBankSize, .run 1, .arrive writeA, .run 2, .run 2,
    .run 2, .run 0]

/-- The history `countBeforeWriteEvents` leaves: the count took effect first,
    then the update, then the lookup. -/
def countBeforeWriteHistory : History Unit Unit (String → Option Int) Unit Int :=
  ⟨(writeValues okBackend (startSessionIfNecessary okBackend Registry.empty "emb").2
      ⟨"emb", (∅ : ProtoMap Int).insert "a" 5, ∅⟩).getD Registry.empty, countBeforeWrite,
    [.done Status.OK (.lookup ⟨(∅ : ProtoMap Int).insert "a" 5⟩),
      .done Status.OK (.knowledgeBankSize 1), .done Status.OK .update], [1, 2, 0]⟩

/-- What the handlers of `countBeforeWriteHistory` returned: the lookup reads
    5 at `a`, and the count one session. -/
theorem mem_countBeforeWrite_replies {rq : Request Unit Unit Int} {o : Status × Answer Int}
    (hm : (rq, some o) ∈
      countBeforeWrite.zip (countBeforeWriteHistory.threads.map Stage.reply)) :
    (rq = readA → (match o.2 with | .lookup t => t "a" | _ => none) = some 5) ∧
    (rq = .knowledgeBankSize → (match o.2 with | .knowledgeBankSize n => n | _ => 0) = 1) := by
  simp only [countBeforeWrite, countBeforeWriteHistory, List.map_cons, List.map_nil, Stage.reply,
    List.zip_cons_cons, List.zip_nil_left, List.mem_cons, List.mem_singleton, List.not_mem_nil,
    Prod.mk.injEq, Option.some.injEq, or_false] at hm
  rcases hm with ⟨rfl, rfl⟩ | ⟨rfl, rfl⟩ | ⟨rfl, rfl⟩ <;>
    refine ⟨fun e => ?_, fun e => ?_⟩ <;> first | rfl | cases e

end Carls
