import Carls.Abstract.Interleaved

/-!
# Requests with One Writing Section Are Linearizable

Every request but an `Update` with both values and gradients writes the
registry in at most one lock-held section: `StartSession` in its start,
`Lookup` in its section, an `Update` with values only in its values branch,
and one with gradients only in its gradient branch. Such a request takes
effect at once, at that section, or at its start when the start fails. So
every interleaving of their sections, on any sessions, that runs them all to
the end is a serial run of the abstract service (`Linearized.finished`): the
requests can be put in an order such that serving them one after another
returns each one the status and the answer its thread returned, a lookup's
table included, and leaves the tables the registry implements.
`KnowledgeBankSize`, which writes nothing but counts sessions that the serial
run may not have made yet, is put in its place in `Abstract.Sizes`; an
`Update` with both values and gradients is the one exception
(`lookup_between_branches`).

The order is the one in which the threads take their linearizing sections.
At every point of the run, the registry implements the tables of the serial
run of the threads past that section, with the handles of the threads in
between started (`Design.pending`): a thread past a successful start has a
store its request's serial run has not made yet. A start that goes on adds
its handle, and a linearizing section serves its request on the serial run
(`Linearized.step`).

## Main definitions

* `Request.atomic`: A request with at most one writing section.
* `Request.countsSessions`: `KnowledgeBankSize`.
* `Stage.reply`: What a returned thread returned, as a client reads it.
* `Design.results`: The statuses and answers a serial run returns.
* `Design.pending`: A table once some handles are started.
* `Stage.pendingHandle`, `Stage.outcome`: A thread between its start and its
  linearizing section, and the reply of one past it.
* `InFlight`: The stages a thread of an atomic request stands at.
* `SectionStep`: What one section does: nothing, or its request's effect.
* `Linearized`: The invariant of the run.

## Theorems

* `Design.lookup_start_pending`, `Design.lookup_start_pending_start`,
  `Design.lookup_pending_start`, `Design.lookup_replace_pending`: A start
  that goes on, a start that linearizes, and a linearizing section that
  writes nothing or one table, on the tables.
* `InFlight.step`: A thread stays where its request can stand.
* `InFlight.sectionStep`: One section of one thread, on the invariant.
* `linearized_start`, `Linearized.step`, `linearized_of_sections`: The
  invariant at the entries, after one section of any thread, and along every
  interleaving.
* `Linearized.finished`: Once every thread has returned, the serial run.
-/

namespace Carls

/-- A request with at most one section that writes the registry: anything but
    an `Update` with both values and gradients. -/
def Request.atomic {K G V : Type} : Request K G V → Bool
  | .update r => r.values.keys.isEmpty || r.gradients.keys.isEmpty
  | _ => true

/-- `KnowledgeBankSize`, the one request whose answer counts every session. -/
def Request.countsSessions {K G V : Type} : Request K G V → Bool
  | .knowledgeBankSize => true
  | _ => false

/-- What a handler that has returned returned, as a client reads it. -/
def Stage.reply {V : Type} : Stage V → Option (Status × Answer V)
  | .done st resp => some (st, resp.answer)
  | _ => none

/-- What a request returns in the abstract service, as a client reads it. -/
def Outcome.result {V : Type} (o : Outcome V) : Status × Answer V := (o.status, o.answer)

namespace Design

variable {K G V : Type} (D : Design K G V)

/-- What a serial run of `rqs` from `A` returns, request by request. -/
def results : Tables V → List (Request K G V) → List (Status × Answer V)
  | _, [] => []
  | A, rq :: rqs => (D.serve A rq).result :: results (D.serve A rq).tables rqs

theorem length_results :
    ∀ (A : Tables V) (rqs : List (Request K G V)), (D.results A rqs).length = rqs.length
  | _, [] => rfl
  | _, _ :: rqs => congrArg Nat.succ (length_results _ rqs)

theorem serveAll_append :
    ∀ (A : Tables V) (rqs rqs' : List (Request K G V)),
      D.serveAll A (rqs ++ rqs') = D.serveAll (D.serveAll A rqs) rqs'
  | _, [], _ => rfl
  | _, _ :: rqs, rqs' => serveAll_append _ rqs rqs'

theorem results_append :
    ∀ (A : Tables V) (rqs rqs' : List (Request K G V)),
      D.results A (rqs ++ rqs') = D.results A rqs ++ D.results (D.serveAll A rqs) rqs'
  | _, [], _ => rfl
  | _, _ :: rqs, rqs' => congrArg (_ :: ·) (results_append _ rqs rqs')

theorem serveAll_append_singleton (A : Tables V) (rqs : List (Request K G V))
    (rq : Request K G V) : D.serveAll A (rqs ++ [rq]) = (D.serve (D.serveAll A rqs) rq).tables :=
  D.serveAll_append A rqs [rq]

theorem results_append_singleton (A : Tables V) (rqs : List (Request K G V))
    (rq : Request K G V) :
    D.results A (rqs ++ [rq]) = D.results A rqs ++ [(D.serve (D.serveAll A rqs) rq).result] :=
  D.results_append A rqs [rq]

/-- What a serial run returns a request, it returns it on the tables the
    requests before it leave. -/
theorem exists_of_mem_zip_results {rq : Request K G V} {o : Status × Answer V} :
    ∀ {A : Tables V} {lin : List (Request K G V)}, (rq, o) ∈ lin.zip (D.results A lin) →
      ∃ pre post, lin = pre ++ rq :: post ∧ o = (D.serve (D.serveAll A pre) rq).result
  | _, [], hm => by cases hm
  | A, x :: lin, hm => by
    rcases List.mem_cons.mp hm with e | hm
    · obtain ⟨rfl, rfl⟩ := Prod.mk.inj e
      exact ⟨[], lin, rfl, rfl⟩
    · obtain ⟨pre, post, rfl, ho⟩ := exists_of_mem_zip_results hm
      exact ⟨x :: pre, post, rfl, ho⟩

/-- The table of `h` in `Y` once the handles of `P` are started. -/
def pending (Y : Tables V) (P : List String) (h : String) : Option (String → Option V) :=
  if h ∈ P then (Y.lookup h).or (D.fresh h) else Y.lookup h

section Pending

variable {T Y : Tables V} {P : List String}

theorem pending_congr {P' : List String} (hP : ∀ h, h ∈ P ↔ h ∈ P') (h : String) :
    D.pending Y P h = D.pending Y P' h := by
  simp only [pending, hP]

theorem pending_of_lookup_eq {Y' : Tables V} {h : String} (hY : Y.lookup h = Y'.lookup h) :
    D.pending Y P h = D.pending Y' P h := by
  simp only [pending, hY]

@[simp] theorem pending_nil (h : String) : D.pending Y [] h = Y.lookup h := by
  simp [pending]

/-- A started handle's table is the one its start leaves in the serial run. -/
theorem lookup_start_of_pending {h : String} (hT : ∀ h', T.lookup h' = D.pending Y (h :: P) h') :
    (D.start Y h).lookup h = T.lookup h := by
  rw [lookup_start, if_pos rfl, hT, pending, if_pos (List.mem_cons_self _ _)]

/-- A start of `h` that goes on: `h` joins the started handles. -/
theorem lookup_start_pending (hT : ∀ h', T.lookup h' = D.pending Y P h') (h h' : String) :
    (D.start T h).lookup h' = D.pending Y (h :: P) h' := by
  rw [lookup_start]
  split_ifs with e
  · subst e
    by_cases hm : h' ∈ P <;> simp [pending, hT, hm, Option.or_assoc]
  · simp [pending, hT, e]

/-- A start of `h` that is its request's linearizing section: the serial run
    gains the start. -/
theorem lookup_start_pending_start (hT : ∀ h', T.lookup h' = D.pending Y P h') (h h' : String) :
    (D.start T h).lookup h' = D.pending (D.start Y h) P h' := by
  rw [lookup_start]
  split_ifs with e
  · subst e
    by_cases hm : h' ∈ P <;> simp [pending, hT, hm, lookup_start, Option.or_assoc]
  · rw [hT]
    exact D.pending_of_lookup_eq (by rw [lookup_start, if_neg e])

/-- A linearizing section on `h`, past its start, that writes nothing. -/
theorem lookup_pending_start {h : String} (hT : ∀ h', T.lookup h' = D.pending Y (h :: P) h')
    (h' : String) : T.lookup h' = D.pending (D.start Y h) P h' := by
  by_cases e : h' = h
  · subst e
    by_cases hm : h' ∈ P <;> simp [pending, hT, hm, lookup_start, Option.or_assoc]
  · rw [hT, ← D.pending_of_lookup_eq (by rw [lookup_start, if_neg e] : (D.start Y h).lookup h' = _)]
    simp [pending, e]

/-- A linearizing section on `h`, past its start, that writes `t'` as the
    table of `h`. -/
theorem lookup_replace_pending {h : String} (hT : ∀ h', T.lookup h' = D.pending Y (h :: P) h')
    {t : String → Option V} (ht : T.lookup h = some t) (t' : String → Option V) (h' : String) :
    (T.replace h t').lookup h' = D.pending ((D.start Y h).replace h t') P h' := by
  have hm : h ∈ D.start Y h := by
    have hh := (hT h).symm.trans ht
    rw [pending, if_pos (List.mem_cons_self _ _)] at hh
    rw [← AList.lookup_isSome, lookup_start, if_pos rfl, hh]
    rfl
  by_cases e : h' = h
  · subst e
    rw [lookup_replace_self _ (mem_of_lookup ht)]
    by_cases hm' : h' ∈ P <;> simp [pending, hm', lookup_replace_self _ hm]
  · rw [lookup_replace_ne _ e, hT, ← D.pending_of_lookup_eq (by
      rw [lookup_replace_ne _ e, lookup_start, if_neg e] : ((D.start Y h).replace h t').lookup h' = _)]
    simp [pending, e]

/-- A table some thread reads is one the serial run has, or one started. -/
theorem isSome_of_pending (hT : ∀ h', T.lookup h' = D.pending Y P h') {h : String}
    (hY : (Y.lookup h).isSome) : (T.lookup h).isSome := by
  rw [hT, pending]
  split_ifs
  · obtain ⟨t, ht⟩ := Option.isSome_iff_exists.mp hY
    simp [ht]
  · exact hY

end Pending

end Design

section Threads

variable {K G σ ω V : Type} (b : Backend K G σ ω V)

/-- The handle of a thread past a successful start and before its
    linearizing section: at `Lookup`'s section, at `Update`'s values branch,
    or at its gradient branch when there are gradients to apply. -/
def Stage.pendingHandle : Stage V → Option String
  | .lookup r => some r.sessionHandle
  | .values r => some r.sessionHandle
  | .gradients r => if r.gradients.keys = [] then none else some r.sessionHandle
  | _ => none

/-- The reply of a thread past its linearizing section: returned, or an
    `Update` with values only at its gradient branch, which returns `OK`. -/
def Stage.outcome : Stage V → Option (Status × Answer V)
  | .done st resp => some (st, resp.answer)
  | .gradients r => if r.gradients.keys = [] then some (Status.OK, .update) else none
  | _ => none

/-- Where a thread of a request stands: at its entry, past a successful
    start at one of its sections, or returned. -/
inductive InFlight : Request K G V → Stage V → Prop
  | entry (rq : Request K G V) : InFlight rq (rq.entry b)
  | lookup (r : LookupRequest) (he : (Request.lookup r : Request K G V).entry b = .startLookup r)
      (hok : configStatus b r.sessionHandle = Status.OK) : InFlight (.lookup r) (.lookup r)
  | values (r : UpdateRequest V) (he : (Request.update r : Request K G V).entry b = .startUpdate r)
      (hok : configStatus b r.sessionHandle = Status.OK) : InFlight (.update r) (.values r)
  | gradients (r : UpdateRequest V)
      (he : (Request.update r : Request K G V).entry b = .startUpdate r)
      (hok : configStatus b r.sessionHandle = Status.OK) : InFlight (.update r) (.gradients r)
  | done (rq : Request K G V) (st : Status) (resp : Response V) : InFlight rq (.done st resp)

/-- The threads past their linearizing sections, each with its reply. -/
def linearized (rqs : List (Request K G V)) (ts : List (Stage V)) :
    List (Request K G V × (Status × Answer V)) :=
  (rqs.zip ts).filterMap fun p => p.2.outcome.map (p.1, ·)

theorem pendingHandle_entry (rq : Request K G V) : (rq.entry b).pendingHandle = none := by
  cases rq <;> simp only [Request.entry] <;> (try split_ifs) <;> rfl

theorem eq_done_of_outcome_entry {rq : Request K G V} {o : Status × Answer V}
    (he : (rq.entry b).outcome = some o) :
    ∃ st resp, rq.entry b = .done st resp ∧ o = (st, resp.answer) := by
  cases rq <;> simp only [Request.entry] at he ⊢ <;> (try split_ifs at he ⊢) <;>
    simp only [Stage.outcome, reduceCtorEq, Option.some.injEq] at he <;> exact ⟨_, _, rfl, he.symm⟩

theorem storeMade_of_configStatus_ok {h : String} (hok : configStatus b h = Status.OK) :
    storeMade b h = true := by
  cases hs : storeMade b h
  · simp only [configStatus, hs] at hok
    cases hok
  · rfl

/-- A start whose status has code `OK` is `OK`: the configuration decides one
    of three statuses. -/
theorem configStatus_eq_OK {h : String} (hc : (configStatus b h).code = .ok) :
    configStatus b h = Status.OK := by
  rcases configStatus_cases b h with e | e | e <;> rw [e] at hc ⊢ <;> first | rfl | cases hc

end Threads

section Sections

variable {K G σ ω V : Type} {b : Backend K G σ ω V} {view : σ → String → Option V}
  {init : String → V} (rule : V → V → V)

theorem Buildable.step {reg reg' : Registry σ ω} {s s' : Stage V} (hi : Buildable b reg)
    (hs : s.step b reg = some (s', reg')) : Buildable b reg' := by
  obtain ⟨-, rfl⟩ | ⟨h, -, e | hw⟩ := Stage.step_registry hs
  · exact hi
  · exact e ▸ hi.started h
  · exact hi.storeWrite hw

/-- A start that succeeds has an optimizer factory that does not fail. -/
theorem optimizerFails_of_configStatus_ok {h : String} (hok : configStatus b h = Status.OK) :
    (b.design view init rule).optimizerFails h = false := by
  have hs := storeMade_of_configStatus_ok b hok
  rw [configStatus_of_storeMade init rule hs] at hok
  cases hf : (b.design view init rule).optimizerFails h
  · rfl
  · rw [hf, if_pos rfl] at hok
    cases hok

/-- A request that fails its checks in the abstract service: the status and
    the answer its entry returns, and the tables unchanged. -/
theorem serve_of_entry_done {Y : Tables V} {rq : Request K G V} {st : Status} {resp : Response V}
    (he : rq.entry b = .done st resp) :
    ((b.design view init rule).serve Y rq).result = (st, resp.answer) ∧
      ((b.design view init rule).serve Y rq).tables = Y := by
  cases rq <;> simp only [Request.entry] at he <;> (try split_ifs at he) <;> cases he <;>
    simp_all [Design.serve, Outcome.result, Response.answer]

/-- A failed start in the abstract service, on tables whose handles all have
    a store the factory makes: the status the configuration decides. -/
theorem started_of_configStatus_ne {Y : Tables V} {h : String}
    (hc : (configStatus b h).code ≠ .ok) (hY : (Y.lookup h).isSome → storeMade b h = true)
    (fail : Answer V) (next : Tables V → (String → Option V) → Outcome V) :
    (b.design view init rule).started Y h fail next =
      ⟨configStatus b h, fail, (b.design view init rule).start Y h⟩ := by
  cases hs : storeMade b h
  · -- The store factory fails, and `h` has no table.
    have hn : ((b.design view init rule).start Y h).lookup h = none := by
      rw [Design.lookup_start, if_pos rfl, Option.or_eq_none]
      refine ⟨Option.not_isSome_iff_eq_none.mp fun e => by simpa [hs] using hY e, ?_⟩
      simpa [Backend.design, storeMade] using hs
    simp only [Design.started, hn, configStatus, hs]
    rfl
  · rw [configStatus_of_storeMade init rule hs] at hc ⊢
    cases hf : (b.design view init rule).optimizerFails h
    · rw [hf] at hc
      exact absurd rfl hc
    · have hsome : (((b.design view init rule).start Y h).lookup h).isSome := by
        rw [Design.lookup_start, if_pos rfl]
        cases Y.lookup h <;> simp_all [Backend.design, storeMade]
      obtain ⟨t, ht⟩ := Option.isSome_iff_exists.mp hsome
      simp only [Design.started, ht, hf, if_true]

/-- A start the configuration lets succeed leaves a table. -/
theorem isSome_start_of_configStatus_ok {Y : Tables V} {h : String}
    (hok : configStatus b h = Status.OK) :
    (((b.design view init rule).start Y h).lookup h).isSome := by
  have hs := storeMade_of_configStatus_ok b hok
  rw [Design.lookup_start, if_pos rfl]
  cases Y.lookup h <;> simp_all [Backend.design, storeMade]

/-- A start the configuration lets succeed, in the abstract service: the rest
    of the handler runs on the table it leaves. -/
theorem started_of_configStatus_ok (view : σ → String → Option V) (init : String → V)
    (Y : Tables V) {h : String} (hok : configStatus b h = Status.OK) (fail : Answer V)
    (next : Tables V → (String → Option V) → Outcome V) :
    ∃ t, ((b.design view init rule).start Y h).lookup h = some t ∧
      (b.design view init rule).started Y h fail next =
        next ((b.design view init rule).start Y h) t := by
  obtain ⟨t, ht⟩ := Option.isSome_iff_exists.mp (isSome_start_of_configStatus_ok rule hok)
  exact ⟨t, ht,
    Design.started_of_lookup _ ht (optimizerFails_of_configStatus_ok rule hok) fail next⟩

/-- A thread past a successful start finds its store, whose view is its
    table in `T` and the table the start leaves in the serial run. -/
theorem exists_store_of_pending {reg : Registry σ ω} {T Y : Tables V} {P : List String}
    {h : String} (hi : Implements b view reg T)
    (hT : ∀ h', T.lookup h' = (b.design view init rule).pending Y (h :: P) h')
    (hok : configStatus b h = Status.OK) :
    ∃ kb, reg.esMap.lookup h = some kb ∧ T.lookup h = some (view kb) ∧
      ((b.design view init rule).start Y h).lookup h = some (view kb) := by
  have hsome : (((b.design view init rule).start Y h).lookup h).isSome :=
    isSome_start_of_configStatus_ok rule hok
  rw [Design.lookup_start_of_pending _ hT, hi.tables h, Option.isSome_map'] at hsome
  obtain ⟨kb, hkb⟩ := Option.isSome_iff_exists.mp hsome
  have hT₀ : T.lookup h = some (view kb) := by rw [hi.tables, hkb]; rfl
  exact ⟨kb, hkb, hT₀, (Design.lookup_start_of_pending _ hT).trans hT₀⟩

theorem Stage.step_mem_gdMap {reg reg' : Registry σ ω} {s s' : Stage V}
    (hs : s.step b reg = some (s', reg')) {h : String} (hm : h ∈ reg.gdMap) : h ∈ reg'.gdMap := by
  obtain ⟨-, rfl⟩ | ⟨h', -, e | hw⟩ := Stage.step_registry hs
  · exact hm
  · exact e ▸ (addsOnly_startSessionIfNecessary b reg h').mem_gdMap hm
  · exact hw.gdMap_eq ▸ hm

variable {rule}

/-- A thread stays where its request can stand. -/
theorem InFlight.step {rq : Request K G V} {s s' : Stage V} {reg reg' : Registry σ ω}
    (hin : InFlight b rq s) (hi : Buildable b reg) (hs : s.step b reg = some (s', reg')) :
    InFlight b rq s' := by
  cases hin with
  | entry rq =>
    cases rq with
    | startSession r =>
      simp only [Request.entry] at hs
      split_ifs at hs
      · cases hs
      obtain ⟨rfl, -⟩ := Prod.mk.inj (Option.some.inj hs)
      unfold afterStart
      split_ifs <;> exact .done _ _ _
    | lookup r =>
      simp only [Request.entry] at hs
      split_ifs at hs with h₁ h₂
      · cases hs
      · cases hs
      obtain ⟨rfl, -⟩ := Prod.mk.inj (Option.some.inj hs)
      rw [hi.fst_startSessionIfNecessary, afterStart]
      split_ifs with hc
      · exact .lookup r (by simp [Request.entry, h₁, h₂]) (configStatus_eq_OK b hc)
      · exact .done _ _ _
    | update r =>
      simp only [Request.entry] at hs
      split_ifs at hs with h₁ h₂
      · cases hs
      · cases hs
      obtain ⟨rfl, -⟩ := Prod.mk.inj (Option.some.inj hs)
      rw [hi.fst_startSessionIfNecessary, afterStart]
      split_ifs with hc
      · exact .values r (by simp [Request.entry, h₁, h₂]) (configStatus_eq_OK b hc)
      · exact .done _ _ _
    | knowledgeBankSize =>
      obtain ⟨rfl, -⟩ := Prod.mk.inj (Option.some.inj hs)
      exact .done _ _ _
  | lookup r =>
    obtain ⟨_, -, ⟨⟩⟩ := Option.map_eq_some'.mp hs
    exact .done _ _ _
  | values r he hok =>
    obtain ⟨_, -, ⟨⟩⟩ := Option.map_eq_some'.mp hs
    exact .gradients r he hok
  | gradients r =>
    obtain ⟨_, -, ⟨⟩⟩ := Option.map_eq_some'.mp hs
    exact .done _ _ _
  | done => cases hs

/-- A thread that is between its start and its linearizing section after a
    section was so before it, or has just started successfully. -/
theorem InFlight.pendingHandle_step {rq : Request K G V} {s s' : Stage V}
    {reg reg' : Registry σ ω} (hin : InFlight b rq s) (hi : Buildable b reg)
    (hs : s.step b reg = some (s', reg')) {h : String} (hh : s'.pendingHandle = some h) :
    s.pendingHandle = some h ∨
      (reg' = (startSessionIfNecessary b reg h).2 ∧ configStatus b h = Status.OK) := by
  cases hin with
  | entry rq =>
    cases rq with
    | update r | lookup r =>
      simp only [Request.entry] at hs
      split_ifs at hs
      · cases hs
      · cases hs
      obtain ⟨rfl, rfl⟩ := Prod.mk.inj (Option.some.inj hs)
      rw [hi.fst_startSessionIfNecessary, afterStart] at hh
      split_ifs at hh with hc
      · cases hh
        exact .inr ⟨rfl, configStatus_eq_OK b hc⟩
      · cases hh
    | startSession r =>
      simp only [Request.entry] at hs
      split_ifs at hs
      · cases hs
      obtain ⟨rfl, -⟩ := Prod.mk.inj (Option.some.inj hs)
      unfold afterStart at hh
      split_ifs at hh <;> cases hh
    | knowledgeBankSize =>
      obtain ⟨rfl, -⟩ := Prod.mk.inj (Option.some.inj hs)
      cases hh
  | values r =>
    obtain ⟨_, -, ⟨⟩⟩ := Option.map_eq_some'.mp hs
    simp only [Stage.pendingHandle] at hh ⊢
    split_ifs at hh
    exact .inl hh
  | lookup r | gradients r =>
    obtain ⟨_, -, ⟨⟩⟩ := Option.map_eq_some'.mp hs
    cases hh
  | done => cases hs

end Sections

section Effect

variable {K G σ ω V : Type} (b : Backend K G σ ω V) (view : σ → String → Option V)
  (init : String → V) (rule : V → V → V)

/-- What one section of a thread of `rq`, from `s` to `s'`, does to the
    invariant, the serial run being `Y` and the other threads' started
    handles `Po`: it takes no effect, or it is the request's linearizing
    section, which serves `rq` on the serial run and returns its reply. -/
def SectionStep (rq : Request K G V) (s s' : Stage V) (reg' : Registry σ ω) (Y : Tables V)
    (Po : List String) : Prop :=
  (s'.outcome = s.outcome ∧ ∃ T', Implements b view reg' T' ∧
    ∀ h, T'.lookup h = (b.design view init rule).pending Y (s'.pendingHandle.toList ++ Po) h) ∨
  (s.outcome = none ∧ s'.outcome = some ((b.design view init rule).serve Y rq).result ∧
    ∃ T', Implements b view reg' T' ∧ ∀ h, T'.lookup h = (b.design view init rule).pending
      ((b.design view init rule).serve Y rq).tables (s'.pendingHandle.toList ++ Po) h)

variable {b view init rule}

/-- A start: it goes on, and its handle joins the started ones; or it is the
    linearizing section of a `StartSession`, or of a request whose start
    fails. -/
theorem sectionStep_entry {rq : Request K G V} (hsz : rq.countsSessions = false) {s' : Stage V}
    {reg reg' : Registry σ ω} {T Y : Tables V} {Po : List String} (hi : Implements b view reg T)
    (hT : ∀ h, T.lookup h = (b.design view init rule).pending Y Po h)
    (hs : (rq.entry b).step b reg = some (s', reg')) :
    SectionStep b view init rule rq (rq.entry b) s' reg' Y Po := by
  -- Every table of the serial run has a store the factory makes.
  have hY : ∀ h, (Y.lookup h).isSome → storeMade b h = true := fun h hy => by
    have hT' := (b.design view init rule).isSome_of_pending hT hy
    rw [hi.tables h, Option.isSome_map'] at hT'
    exact (hi.buildable h).1 (AList.lookup_isSome.mp hT')
  have hstart := fun h => (b.design view init rule).lookup_start_pending_start hT h
  cases rq with
  | startSession r =>
    simp only [Request.entry] at hs ⊢
    split_ifs at hs ⊢ with hn
    · cases hs
    obtain ⟨rfl, rfl⟩ := Prod.mk.inj (Option.some.inj hs)
    rw [hi.buildable.fst_startSessionIfNecessary, afterStart]
    split_ifs with hc
    · -- Both factories succeed.
      obtain ⟨t, -, hst⟩ := started_of_configStatus_ok rule view init Y (configStatus_eq_OK b hc)
        (.startSession "") fun A₁ _ => (⟨Status.OK, .startSession (b.serializeAsString r), A₁⟩ :
          Outcome V)
      refine .inr ⟨rfl, ?_, _, hi.start init rule _, fun h => ?_⟩ <;>
        simp only [Design.serve, if_neg hn, design_handleOf, hst, configStatus_eq_OK b hc]
      · rfl
      · exact hstart _ h
    · refine .inr ⟨rfl, ?_, _, hi.start init rule _, fun h => ?_⟩ <;>
        simp only [Design.serve, if_neg hn, design_handleOf, started_of_configStatus_ne rule hc (hY _)]
      · rfl
      · exact hstart _ h
  | lookup r | update r =>
    simp only [Request.entry] at hs ⊢
    split_ifs at hs ⊢ with h₁ h₂
    · cases hs
    · cases hs
    obtain ⟨rfl, rfl⟩ := Prod.mk.inj (Option.some.inj hs)
    rw [hi.buildable.fst_startSessionIfNecessary, afterStart]
    split_ifs with hc
    · -- On to the section.
      exact .inl ⟨rfl, _, hi.start init rule _,
        (b.design view init rule).lookup_start_pending hT r.sessionHandle⟩
    · -- A factory fails: the request returns the start's status and nothing else.
      refine .inr ⟨rfl, ?_, _, hi.start init rule _, fun h => ?_⟩ <;>
        simp only [Design.serve, if_neg h₁, if_neg h₂, started_of_configStatus_ne rule hc (hY _)]
      · rfl
      · exact hstart _ h
  | knowledgeBankSize => cases hsz

/-- `Lookup`'s section, its request's linearizing section: it reads the
    table, or creates the missing keys, and answers the table on its keys. -/
theorem sectionStep_lookup (hb : MapSemantics b view init) {r : LookupRequest}
    (he : (Request.lookup r : Request K G V).entry b = .startLookup r)
    (hok : configStatus b r.sessionHandle = Status.OK) {s' : Stage V} {reg reg' : Registry σ ω}
    {T Y : Tables V} {Po : List String} (hi : Implements b view reg T)
    (hT : ∀ h, T.lookup h = (b.design view init rule).pending Y (r.sessionHandle :: Po) h)
    (hs : (Stage.lookup r).step b reg = some (s', reg')) :
    SectionStep b view init rule (.lookup r) (.lookup r) s' reg' Y Po := by
  have h₁ : r.sessionHandle ≠ "" := fun e => by simp [Request.entry, e] at he
  have h₂ : r.key ≠ [] := fun e => by simp [Request.entry, h₁, e] at he
  obtain ⟨kb, hkb, hT₀, ht⟩ := exists_store_of_pending rule hi hT hok
  obtain ⟨reply, hl, ⟨⟩⟩ := Option.map_eq_some'.mp hs
  -- The abstract lookup runs on the started table.
  simp only [SectionStep, Design.serve, if_neg h₁, if_neg h₂,
    Design.started_of_lookup _ ht (optimizerFails_of_configStatus_ok rule hok)]
  obtain ⟨h, keys, update⟩ := r
  cases update with
  | false =>
    obtain ⟨r, hr, hst, hreg, htable⟩ := lookupSection_read hb hkb keys
    cases Option.some.inj (hl.symm.trans hr)
    refine .inr ⟨rfl, ?_, T, hreg ▸ hi, (b.design view init rule).lookup_pending_start hT⟩
    simp only [Stage.outcome, Outcome.result, Response.answer, hst, if_false, Bool.false_eq_true]
    exact congrArg (fun t => some (Status.OK, Answer.lookup t)) (funext htable)
  | true =>
    obtain ⟨r, kb', hr, hst, hreg, hview, htable⟩ := lookupSection_create hb hkb keys
    cases Option.some.inj (hl.symm.trans hr)
    refine .inr ⟨rfl, ?_, _, hreg ▸ hi.storeWrite
      (Registry.storeWrite_setStore reg h kb') (Registry.lookup_setStore_self kb' (mem_of_lookup hkb)),
      fun h' => ?_⟩
    · simp only [Stage.outcome, Outcome.result, Response.answer, hst, if_true]
      rw [design_init, ← hview]
      exact congrArg (fun t => some (Status.OK, Answer.lookup t)) (funext htable)
    · rw [hview]
      exact (b.design view init rule).lookup_replace_pending hT hT₀ _ h'

/-- `Update`'s values branch: with no values it writes nothing, and the
    gradients are still to come; with values only it is the linearizing
    section. -/
theorem sectionStep_values (hb : MapSemantics b view init) {r : UpdateRequest V}
    (hat : (Request.update r : Request K G V).atomic = true)
    (he : (Request.update r : Request K G V).entry b = .startUpdate r)
    (hok : configStatus b r.sessionHandle = Status.OK) {s' : Stage V} {reg reg' : Registry σ ω}
    {T Y : Tables V} {Po : List String} (hi : Implements b view reg T)
    (hT : ∀ h, T.lookup h = (b.design view init rule).pending Y (r.sessionHandle :: Po) h)
    (hs : (Stage.values r).step b reg = some (s', reg')) :
    SectionStep b view init rule (.update r) (.values r) s' reg' Y Po := by
  have h₁ : r.sessionHandle ≠ "" := fun e => by simp [Request.entry, e] at he
  have h₂ : ¬(r.values.keys = [] ∧ r.gradients.keys = []) := fun e => by
    simp [Request.entry, h₁, e] at he
  obtain ⟨reg₁, hw, ⟨⟩⟩ := Option.map_eq_some'.mp hs
  by_cases hv : r.values.keys = []
  · -- No values: the gradients are still to come.
    have hg : r.gradients.keys ≠ [] := fun hg => h₂ ⟨hv, hg⟩
    simp only [writeValues, if_pos hv, Option.some_inj] at hw
    subst hw
    exact .inl ⟨by simp [Stage.outcome, hg], T, hi, fun h => by
      rw [hT]; simp [Stage.pendingHandle, hg]⟩
  · -- Values only: the branch writes them, and the request takes effect.
    have hg : r.gradients.keys = [] := by simpa [Request.atomic, hv] using hat
    obtain ⟨kb, hkb, hT₀, ht⟩ := exists_store_of_pending rule hi hT hok
    obtain ⟨reg₂, kb₁, hw', hkb₁, -, hview⟩ := writeValues_of_mapSemantics hb hkb
    cases Option.some.inj (hw.symm.trans hw')
    have hserve : (b.design view init rule).serve Y (.update r) = ⟨Status.OK, .update,
        ((b.design view init rule).start Y r.sessionHandle).replace r.sessionHandle
          (overwrite (view kb) r.values.keys r.values.values)⟩ := by
      simp only [Design.serve, if_neg h₁, if_neg h₂, Design.gradientStep, if_pos hg,
        Design.started_of_lookup _ ht (optimizerFails_of_configStatus_ok rule hok)]
    refine .inr ⟨rfl, by simp [Stage.outcome, hg, hserve, Outcome.result], _,
      hi.storeWrite (writeValues_registry hw) hkb₁, fun h' => ?_⟩
    rw [hserve, hview]
    simpa [Stage.pendingHandle, hg] using
      (b.design view init rule).lookup_replace_pending hT hT₀ _ h'

/-- `Update`'s gradient branch: with no gradients it writes nothing and
    returns `OK`; with gradients only it is the linearizing section. -/
theorem sectionStep_gradients (hb : MapSemantics b view init) (happly : PairwiseApply b rule)
    {r : UpdateRequest V} (hat : (Request.update r : Request K G V).atomic = true)
    (he : (Request.update r : Request K G V).entry b = .startUpdate r)
    (hok : configStatus b r.sessionHandle = Status.OK) {s' : Stage V} {reg reg' : Registry σ ω}
    {T Y : Tables V} {Po : List String} (hi : Implements b view reg T)
    (hT : ∀ h, T.lookup h =
      (b.design view init rule).pending Y ((Stage.gradients r).pendingHandle.toList ++ Po) h)
    (hopt : ∀ h, (Stage.gradients r).pendingHandle = some h →
      (b.design view init rule).requested h = true → h ∈ reg.gdMap)
    (hs : (Stage.gradients r).step b reg = some (s', reg')) :
    SectionStep b view init rule (.update r) (.gradients r) s' reg' Y Po := by
  have h₁ : r.sessionHandle ≠ "" := fun e => by simp [Request.entry, e] at he
  have h₂ : ¬(r.values.keys = [] ∧ r.gradients.keys = []) := fun e => by
    simp [Request.entry, h₁, e] at he
  obtain ⟨reply, hw, ⟨⟩⟩ := Option.map_eq_some'.mp hs
  by_cases hg : r.gradients.keys = []
  · -- Values only: the branch writes nothing and returns `OK`.
    simp only [writeGradients, if_pos hg, Option.some_inj] at hw
    subst hw
    exact .inl ⟨by simp [Stage.outcome, hg, Response.answer], T, hi, fun h => by
      rw [hT]; simp [Stage.pendingHandle, hg]⟩
  · -- Gradients only: the branch applies them, and the request takes effect.
    have hv : r.values.keys = [] := by simpa [Request.atomic, hg] using hat
    have hh : (Stage.gradients r).pendingHandle = some r.sessionHandle := by
      simp [Stage.pendingHandle, hg]
    rw [hh] at hT
    obtain ⟨kb, hkb, hT₀, ht⟩ := exists_store_of_pending rule hi hT hok
    -- The session has its optimizer exactly when its configuration asks for one.
    have hreq : r.sessionHandle ∈ reg.gdMap ↔
        (b.design view init rule).requested r.sessionHandle = true := by
      refine ⟨fun hm => ?_, hopt _ hh⟩
      obtain ⟨opt, ho⟩ := Option.isSome_iff_exists.mp (AList.lookup_isSome.mpr hm)
      obtain ⟨gd, hgd, -⟩ := hi.optimizers _ opt ho
      simp [Backend.design, hgd]
    obtain ⟨r', hw', hst, hi'⟩ := writeGradients_design hb happly hi hkb hreq
    cases Option.some.inj (hw.symm.trans hw')
    have hserve : (b.design view init rule).serve Y (.update r) =
        ⟨((b.design view init rule).gradientStep r.sessionHandle r.gradients (view kb)).1, .update,
          ((b.design view init rule).start Y r.sessionHandle).replace r.sessionHandle
            ((b.design view init rule).gradientStep r.sessionHandle r.gradients (view kb)).2⟩ := by
      simp only [Design.serve, if_neg h₁, if_neg h₂,
        Design.started_of_lookup _ ht (optimizerFails_of_configStatus_ok rule hok)]
      rw [hv]
      rfl
    refine .inr ⟨by simp [Stage.outcome, hg], by rw [hst, hserve]; rfl, _, hi', fun h' => ?_⟩
    rw [hserve]
    exact (b.design view init rule).lookup_replace_pending hT hT₀ _ h'

/-- One section of one thread of an atomic request other than
    `KnowledgeBankSize`, on the invariant. -/
theorem InFlight.sectionStep (hb : MapSemantics b view init) {rq : Request K G V}
    (happly : rq.reads = false → PairwiseApply b rule) {s s' : Stage V} {reg reg' : Registry σ ω}
    {T Y : Tables V} {Po : List String} (hin : InFlight b rq s) (hat : rq.atomic = true)
    (hsz : rq.countsSessions = false) (hi : Implements b view reg T)
    (hT : ∀ h, T.lookup h = (b.design view init rule).pending Y (s.pendingHandle.toList ++ Po) h)
    (hopt : ∀ h, s.pendingHandle = some h →
      (b.design view init rule).requested h = true → h ∈ reg.gdMap)
    (hs : s.step b reg = some (s', reg')) : SectionStep b view init rule rq s s' reg' Y Po := by
  cases hin with
  | entry rq => exact sectionStep_entry hsz hi (fun h => by rw [hT, pendingHandle_entry]; rfl) hs
  | lookup r he hok => exact sectionStep_lookup hb he hok hi hT hs
  | values r he hok => exact sectionStep_values hb hat he hok hi hT hs
  | gradients r he hok => exact sectionStep_gradients hb (happly rfl) hat he hok hi hT hopt hs
  | done => cases hs

end Effect

section Run

variable {K G σ ω V : Type} (b : Backend K G σ ω V) (view : σ → String → Option V)
  (init : String → V) (rule : V → V → V)

/-- The invariant of a run of threads `ts` of requests `rqs` on registry
    `reg`, with serial run `lin` from `A`. -/
structure Linearized (A : Tables V) (rqs : List (Request K G V)) (reg : Registry σ ω)
    (ts : List (Stage V)) (lin : List (Request K G V)) : Prop where
  /-- Every thread stands where its request can. -/
  inFlight : List.Forall₂ (InFlight b) rqs ts
  /-- The threads past their linearizing sections are the requests of `lin`,
      each with the status and the answer `lin` returns it. -/
  perm : (lin.zip ((b.design view init rule).results A lin)).Perm (linearized rqs ts)
  /-- The registry implements the tables of `lin`, with the handles of the
      threads in between started. -/
  tables : ∃ T, Implements b view reg T ∧ ∀ h, T.lookup h =
    (b.design view init rule).pending ((b.design view init rule).serveAll A lin)
      (ts.filterMap Stage.pendingHandle) h
  /-- Those threads find their optimizer where their configuration asks for
      one. -/
  optimizers : ∀ h ∈ ts.filterMap Stage.pendingHandle,
    (b.design view init rule).requested h = true → h ∈ reg.gdMap

variable {b view init rule}

theorem linearized_middle {rpre rpost : List (Request K G V)} {pre post : List (Stage V)}
    (hl : rpre.length = pre.length) (rq : Request K G V) (s : Stage V) :
    linearized (rpre ++ rq :: rpost) (pre ++ s :: post) =
      linearized rpre pre ++ (s.outcome.map (rq, ·)).toList ++ linearized rpost post := by
  simp only [linearized, List.zip_append hl, List.zip_cons_cons, List.filterMap_append,
    List.filterMap_cons]
  cases s.outcome <;> simp

theorem mem_filterMap_pendingHandle_middle (pre post : List (Stage V)) (s : Stage V)
    (h : String) : h ∈ (pre ++ s :: post).filterMap Stage.pendingHandle ↔
      h ∈ s.pendingHandle.toList ++ (pre ++ post).filterMap Stage.pendingHandle := by
  cases hp : s.pendingHandle <;>
    simp only [List.filterMap_append, List.filterMap_cons, hp, List.mem_append, List.mem_cons,
      Option.toList_some, Option.toList_none, List.not_mem_nil, false_or, or_false, or_left_comm]

/-- The threads whose optimizer the registry must hold keep it, and a thread
    that has just started has the one its configuration asks for. -/
theorem optimizers_step {rq : Request K G V} {s s' : Stage V} {reg reg' : Registry σ ω}
    {Po : List String} (hin : InFlight b rq s) (hi : Buildable b reg)
    (hs : s.step b reg = some (s', reg'))
    (hopt : ∀ h ∈ s.pendingHandle.toList ++ Po,
      (b.design view init rule).requested h = true → h ∈ reg.gdMap) :
    ∀ h ∈ s'.pendingHandle.toList ++ Po,
      (b.design view init rule).requested h = true → h ∈ reg'.gdMap := by
  intro h hm hreq
  rcases List.mem_append.mp hm with hm | hm
  · rcases hin.pendingHandle_step hi hs (Option.mem_toList.mp hm) with e | ⟨rfl, hok⟩
    · exact Stage.step_mem_gdMap hs
        (hopt h (List.mem_append_left _ (Option.mem_toList.mpr e)) hreq)
    · exact ((hi.mem_startSessionIfNecessary h).2).mpr ⟨storeMade_of_configStatus_ok b hok,
        (optimizerMade_iff init rule (optimizerFails_of_configStatus_ok rule hok)).mpr hreq⟩
  · exact Stage.step_mem_gdMap hs (hopt h (List.mem_append_right _ hm) hreq)

theorem forall₂_middle {α β : Type} {R : α → β → Prop} {x : α} {y : β} {xs₂ : List α}
    {ys₂ : List β} :
    ∀ {xs₁ : List α} {ys₁ : List β}, xs₁.length = ys₁.length →
      List.Forall₂ R (xs₁ ++ x :: xs₂) (ys₁ ++ y :: ys₂) →
      List.Forall₂ R xs₁ ys₁ ∧ R x y ∧ List.Forall₂ R xs₂ ys₂
  | [], [], _, .cons h₁ h₂ => ⟨.nil, h₁, h₂⟩
  | _ :: _, _ :: _, hl, .cons h₁ h₂ =>
    let ⟨h₃, h₄, h₅⟩ := forall₂_middle (Nat.succ.inj hl) h₂
    ⟨.cons h₁ h₃, h₄, h₅⟩

/-- One section of the thread of `rq` keeps the invariant: it takes no
    effect, or it is the request's linearizing section, and the serial run
    grows by `rq`, whose status and answer there are the thread's. -/
theorem Linearized.step (hb : MapSemantics b view init) {A : Tables V}
    {rpre rpost : List (Request K G V)} {rq : Request K G V}
    (happly : rq.reads = false → PairwiseApply b rule)
    (hat : rq.atomic = true) (hsz : rq.countsSessions = false) {reg reg' : Registry σ ω}
    {pre post : List (Stage V)} {s s' : Stage V} {lin : List (Request K G V)}
    (hlen : rpre.length = pre.length)
    (hl : Linearized b view init rule A (rpre ++ rq :: rpost) reg (pre ++ s :: post) lin)
    (hs : s.step b reg = some (s', reg')) :
    (s'.outcome = s.outcome ∧
      Linearized b view init rule A (rpre ++ rq :: rpost) reg' (pre ++ s' :: post) lin) ∨
    (s.outcome = none ∧ s'.outcome = some ((b.design view init rule).serve
        ((b.design view init rule).serveAll A lin) rq).result ∧
      Linearized b view init rule A (rpre ++ rq :: rpost) reg' (pre ++ s' :: post)
        (lin ++ [rq])) := by
  obtain ⟨hpre, hin, hpost⟩ := forall₂_middle hlen hl.inFlight
  obtain ⟨T, hi, hT⟩ := hl.tables
  have hmid := mem_filterMap_pendingHandle_middle pre post
  -- The invariant seen from the thread that runs.
  have hopt : ∀ h ∈ s.pendingHandle.toList ++ (pre ++ post).filterMap Stage.pendingHandle,
      (b.design view init rule).requested h = true → h ∈ reg.gdMap :=
    fun h hm => hl.optimizers h ((hmid s h).mpr hm)
  have hflight := List.rel_append hpre (.cons (hin.step hi.buildable hs) hpost)
  have hopt' := optimizers_step hin hi.buildable hs hopt
  have hperm := hl.perm
  rw [linearized_middle hlen] at hperm
  rcases hin.sectionStep hb happly hat hsz hi
    (fun h => (hT h).trans ((b.design view init rule).pending_congr (hmid s) h))
    (fun h e => hopt h (List.mem_append_left _ (by simp [e]))) hs with
    ⟨hout, T', hi', hT'⟩ | ⟨hnone, hout, T', hi', hT'⟩
  · -- No effect: the serial run stays.
    refine .inl ⟨hout, hflight, ?_, ⟨T', hi', fun h => (hT' h).trans
      ((b.design view init rule).pending_congr (hmid s') h).symm⟩,
      fun h hm => hopt' h ((hmid s' h).mp hm)⟩
    rwa [linearized_middle hlen, hout]
  · -- The linearizing section: the request joins the serial run.
    refine .inr ⟨hnone, hout, hflight, ?_, ⟨T', hi', fun h => ?_⟩,
      fun h hm => hopt' h ((hmid s' h).mp hm)⟩
    · rw [Design.results_append_singleton, List.zip_append (Design.length_results _ _ _).symm,
        linearized_middle hlen, hout]
      rw [hnone] at hperm
      simp only [Option.map_some', Option.map_none', Option.toList_some, Option.toList_none,
        List.append_nil, List.append_assoc, List.singleton_append] at hperm ⊢
      exact (hperm.append_right _).trans
        ((List.perm_append_singleton _ _).trans List.perm_middle.symm)
    · rw [Design.serveAll_append_singleton]
      exact (hT' h).trans ((b.design view init rule).pending_congr (hmid s') h).symm

/-- At their entries, the threads past their linearizing sections are those
    whose checks failed, and serving them changes nothing. -/
theorem linearized_entries (A : Tables V) :
    ∀ rqs : List (Request K G V),
      let lin := (linearized rqs (rqs.map (Request.entry b))).map Prod.fst
      lin.zip ((b.design view init rule).results A lin) =
          linearized rqs (rqs.map (Request.entry b)) ∧
        (b.design view init rule).serveAll A lin = A
  | [] => ⟨rfl, rfl⟩
  | rq :: rqs => by
    obtain ⟨ih₁, ih₂⟩ := linearized_entries A rqs
    cases ho : (rq.entry b).outcome with
    | none => simpa [linearized, ho] using And.intro ih₁ ih₂
    | some o =>
      obtain ⟨st, resp, he, rfl⟩ := eq_done_of_outcome_entry b ho
      obtain ⟨hres, hY⟩ : ((b.design view init rule).serve A rq).result = (st, resp.answer) ∧
          ((b.design view init rule).serve A rq).tables = A := serve_of_entry_done rule he
      simp only [linearized, List.map_cons, List.zip_cons_cons, List.filterMap_cons, ho,
        Option.map_some'] at ih₁ ih₂ ⊢
      simp only [List.map_cons, Design.results, Design.serveAll, hres, hY, List.zip_cons_cons]
      exact ⟨congrArg _ ih₁, ih₂⟩

theorem filterMap_pendingHandle_entries (rqs : List (Request K G V)) :
    (rqs.map (Request.entry b)).filterMap Stage.pendingHandle = [] :=
  List.filterMap_eq_nil_iff.mpr fun s hs => by
    obtain ⟨rq, -, rfl⟩ := List.mem_map.mp hs
    exact pendingHandle_entry b rq

/-- The invariant holds at the entries. -/
theorem linearized_start {reg₀ : Registry σ ω} {A : Tables V} (hi : Implements b view reg₀ A)
    (rqs : List (Request K G V)) :
    Linearized b view init rule A rqs reg₀ (rqs.map (Request.entry b))
      ((linearized rqs (rqs.map (Request.entry b))).map Prod.fst) := by
  refine ⟨List.forall₂_map_right_iff.mpr (List.forall₂_same.mpr fun rq _ => .entry rq), ?_,
    ⟨A, hi, fun h => ?_⟩, fun h hm => ?_⟩
  · rw [(linearized_entries A rqs).1]
  · rw [filterMap_pendingHandle_entries, Design.pending_nil, (linearized_entries A rqs).2]
  · rw [filterMap_pendingHandle_entries] at hm
    cases hm

/-- The invariant holds all along every interleaving of the sections of
    atomic requests other than `KnowledgeBankSize`. -/
theorem linearized_of_sections (hb : MapSemantics b view init) {reg₀ : Registry σ ω}
    {A : Tables V} (hi : Implements b view reg₀ A) (rqs : List (Request K G V))
    (happly : ∀ rq ∈ rqs, rq.reads = false → PairwiseApply b rule)
    (hat : ∀ rq ∈ rqs, rq.atomic = true ∧ rq.countsSessions = false) {c : Config σ ω V}
    (hrun : Relation.ReflTransGen (Sections b) ⟨reg₀, rqs.map (Request.entry b)⟩ c) :
    ∃ lin : List (Request K G V), Linearized b view init rule A rqs c.registry c.threads lin := by
  induction hrun with
  | refl => exact ⟨_, linearized_start hi rqs⟩
  | tail _ hs ih =>
    obtain ⟨lin, hl⟩ := ih
    cases hs with
    | run pre post hstep =>
      obtain ⟨rpre, rq, rpost, hr, hpre, -, -⟩ := forall₂_append_cons hl.inFlight
      rw [hr] at hl
      have hm : rq ∈ rqs := hr ▸ List.mem_append_right _ (List.mem_cons_self _ _)
      obtain ⟨hrq, hsz⟩ := hat rq hm
      rcases hl.step hb (happly rq hm) hrq hsz hpre.length_eq hstep with ⟨-, hl'⟩ | ⟨-, -, hl'⟩ <;>
        exact ⟨_, hr ▸ hl'⟩

theorem map_linearized_of_finished :
    ∀ {rqs : List (Request K G V)} {ts : List (Stage V)}, rqs.length = ts.length →
      (∀ s ∈ ts, s.finished = true) →
      (linearized rqs ts).map (fun p => (p.1, some p.2)) = rqs.zip (ts.map Stage.reply)
  | [], [], _, _ => rfl
  | _ :: _, s :: _, hl, hd => by
    obtain ⟨st, resp, rfl⟩ := Stage.eq_done_of_finished (hd s (List.mem_cons_self _ _))
    exact congrArg _ (map_linearized_of_finished (Nat.succ.inj hl)
      fun s' hm => hd s' (List.mem_cons_of_mem _ hm))

/-- Once every thread has returned, the run is the serial run `lin`: each
    thread returned the status and the answer `lin` returns its request, and
    the registry implements the tables `lin` leaves. -/
theorem Linearized.finished {A : Tables V} {rqs : List (Request K G V)} {reg : Registry σ ω}
    {ts : List (Stage V)} {lin : List (Request K G V)}
    (hl : Linearized b view init rule A rqs reg ts lin) (hdone : ∀ s ∈ ts, s.finished = true) :
    (lin.zip (((b.design view init rule).results A lin).map some)).Perm
      (rqs.zip (ts.map Stage.reply)) ∧
    Implements b view reg ((b.design view init rule).serveAll A lin) := by
  obtain ⟨T, hT, hTl⟩ := hl.tables
  -- No thread is left between its start and its linearizing section.
  have hP : ts.filterMap Stage.pendingHandle = [] :=
    List.filterMap_eq_nil_iff.mpr fun s hs => by
      obtain ⟨st, resp, rfl⟩ := Stage.eq_done_of_finished (hdone s hs)
      rfl
  refine ⟨?_, hT.congr fun h => by rw [hTl, hP, Design.pending_nil]⟩
  rw [List.zip_map_right, ← map_linearized_of_finished hl.inFlight.length_eq hdone]
  exact hl.perm.map _

end Run

end Carls
