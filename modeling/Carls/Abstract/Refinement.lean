import Carls.Abstract.Reads
import Carls.Theory.Sessions

/-!
# The Service Implements the Tables

The handlers of `Service.Handlers`, for a store that behaves as a finite map,
compute the machine of `Abstract.Service`.

A backend, a `view` from store states to tables, the vector a lookup with
update creates and the optimizer's rule give a `Design` (`Backend.design`):
a new store's table is the view of what the store factory builds, and
whether an optimizer is asked for, whether its factory fails and what its
error text says are read off the configuration each handle encodes. A
registry implements tables (`Implements`) when it has a store for exactly
their handles, each store's view is its handle's table, and every store and
optimizer is one the factories build from its handle's configuration.

The proof follows the handlers. A start keeps the relation and reports what
the abstract start reports (`Implements.started_cases`), because the
configuration alone decides its status (`Buildable.fst_startSessionIfNecessary`).
A write to one store keeps the relation, with that handle's table replaced
(`Implements.storeWrite`). The sections act on the table as the abstract
handlers do: `lookupSection_read` and `lookupSection_create` for `Lookup`,
`writeValues_of_mapSemantics` and `writeGradients_design` for `Update`. So a
request gets the status and the answer the abstract service gives and leaves
a registry that implements the tables it leaves (`Implements.serve_agrees`),
and so does every request after any run from the constructor's state
(`serve_refines`).

## Main definitions

* `Backend.design`: The design of a backend, read through `view`.
* `Implements`: A registry implements tables.

## Theorems

* `design_handle`: The abstract handle of a request is its handler's.
* `implements_empty`: The constructor's state implements no sessions.
* `Implements.of_slot`: The relation, handle by handle.
* `Implements.start`, `Implements.started_cases`: A start in both models.
* `Implements.storeWrite`: A write to one store.
* `writeGradients_design`: The gradient branch in both models.
* `Implements.serve_agrees_of_reads`: A request other than `Update` in both
  models, with no assumption on the optimizer.
* `Implements.serve_agrees`, `Implements.serveAll_agrees`: A request, and a
  run, in both models.
* `serve_refines`: After any run, the service answers as the tables do.
-/

namespace Carls

section Design

variable {K G σ ω V : Type}

/-- The design of backend `b` read through `view`, with `init` the vector a
    lookup with update creates and `rule` the optimizer's update rule. -/
def Backend.design (b : Backend K G σ ω V) (view : σ → String → Option V) (init : String → V)
    (rule : V → V → V) : Design K G V where
  handleOf := b.serializeAsString
  fresh h :=
    (b.make (b.sessionConfig h).knowledgeBankConfig (b.sessionConfig h).embeddingDimension).map view
  requested h := (b.sessionConfig h).gradientDescentConfig.isSome
  optimizerFails h := match (b.sessionConfig h).gradientDescentConfig with
    | some gd => (b.create (b.sessionConfig h).embeddingDimension gd).isNone
    | none => false
  init := init
  rule := rule
  applyMessage h vs gs := match (b.sessionConfig h).gradientDescentConfig with
    | some gd => match b.create (b.sessionConfig h).embeddingDimension gd with
      | some opt => (b.apply opt vs gs).2
      | none => ""
    | none => ""

variable (b : Backend K G σ ω V) (view : σ → String → Option V) (init : String → V)
  (rule : V → V → V)

@[simp] theorem design_handleOf : (b.design view init rule).handleOf = b.serializeAsString := rfl

@[simp] theorem design_init : (b.design view init rule).init = init := rfl

@[simp] theorem design_rule : (b.design view init rule).rule = rule := rfl

/-- The abstract handle of a request is the one its handler works on. -/
theorem design_handle (rq : Request K G V) :
    (b.design view init rule).handle rq = (rq.entry b).handle := by
  cases rq with
  | startSession r =>
    by_cases hn : r.name = "" <;> simp [Design.handle, Request.entry, Stage.handle, hn]
  | lookup r =>
    by_cases h₁ : r.sessionHandle = "" <;> by_cases h₂ : r.key = [] <;>
      simp [Design.handle, Request.entry, Stage.handle, h₁, h₂]
  | update r =>
    by_cases h₁ : r.sessionHandle = "" <;>
      by_cases h₂ : r.values.keys = [] ∧ r.gradients.keys = [] <;>
      simp [Design.handle, Request.entry, Stage.handle, h₁, h₂]
  | knowledgeBankSize => rfl

/-- `reg` implements `A`: it has a store for exactly the handles of `A`, each
    store's view is its handle's table, and every store and optimizer is one
    the factories build from its handle's configuration. -/
structure Implements (reg : Registry σ ω) (A : Tables V) : Prop where
  tables : ∀ h, A.lookup h = (reg.esMap.lookup h).map view
  buildable : Buildable b reg
  optimizers : ∀ h opt, reg.gdMap.lookup h = some opt →
    ∃ gd, (b.sessionConfig h).gradientDescentConfig = some gd ∧
      b.create (b.sessionConfig h).embeddingDimension gd = some opt

variable {b view}

/-- With its store made, a start of `h` reports the optimizer factory's
    failure, if the design says it fails, and `OK` otherwise. -/
theorem configStatus_of_storeMade {h : String} (hs : storeMade b h = true) :
    configStatus b h =
      if (b.design view init rule).optimizerFails h then Status.optimizerFailed else Status.OK := by
  unfold configStatus
  dsimp only [Backend.design]
  rw [if_pos hs]
  cases (b.sessionConfig h).gradientDescentConfig with
  | none => rfl
  | some gd => cases hc : b.create (b.sessionConfig h).embeddingDimension gd <;> simp [hc]

/-- Where the optimizer factory does not fail, it builds an optimizer exactly
    when the configuration asks for one. -/
theorem optimizerMade_iff {h : String}
    (hf : (b.design view init rule).optimizerFails h = false) :
    OptimizerMade b h ↔ (b.design view init rule).requested h = true := by
  dsimp only [Backend.design] at hf ⊢
  unfold OptimizerMade
  cases hg : (b.sessionConfig h).gradientDescentConfig with
  | none => simp
  | some gd =>
    rw [hg] at hf
    cases hc : b.create (b.sessionConfig h).embeddingDimension gd <;> simp_all

end Design

section Implements

variable {K G σ ω V : Type} {b : Backend K G σ ω V} {view : σ → String → Option V}
  {reg : Registry σ ω} {A : Tables V}

theorem implements_empty : Implements b view (Registry.empty : Registry σ ω) ∅ :=
  ⟨fun _ => by simp [Registry.empty], fun _ => by simp [Registry.empty],
    fun _ _ h => by simp [Registry.empty] at h⟩

/-- Tables with the same lookups are implemented by the same registries. -/
theorem Implements.congr {A' : Tables V} (hi : Implements b view reg A)
    (he : ∀ h, A'.lookup h = A.lookup h) : Implements b view reg A' :=
  ⟨fun h => (he h).trans (hi.tables h), hi.buildable, hi.optimizers⟩

theorem Implements.mem_iff (hi : Implements b view reg A) (h : String) :
    h ∈ A ↔ h ∈ reg.esMap := by
  rw [← AList.lookup_isSome, ← AList.lookup_isSome, hi.tables h, Option.isSome_map']

/-- A registry implements tables when, handle by handle, it has the entries
    of a registry that implements tables with the same lookup there. -/
theorem Implements.of_slot
    (hs : ∀ h, ∃ (reg' : Registry σ ω) (A' : Tables V), Implements b view reg' A' ∧
      reg.slot h = reg'.slot h ∧ A.lookup h = A'.lookup h) :
    Implements b view reg A := by
  refine ⟨fun h => ?_, fun h => ?_, fun h opt ho => ?_⟩ <;> obtain ⟨reg', A', hi', hsl, hA⟩ := hs h
  · rw [hA, hi'.tables h, (Registry.slot_eq_iff.mp hsl).1]
  · have hm := Registry.mem_iff_of_slot_eq hsl
    exact ⟨fun h₁ => (hi'.buildable h).1 (hm.1.mp h₁), fun h₁ => (hi'.buildable h).2 (hm.2.mp h₁)⟩
  · rw [(Registry.slot_eq_iff.mp hsl).2] at ho
    exact hi'.optimizers h opt ho

/-- The tables have as many sessions as the registry has stores. -/
theorem Implements.length_keys (hi : Implements b view reg A) :
    A.keys.length = reg.esMap.keys.length :=
  ((List.perm_ext_iff_of_nodup A.keys_nodup reg.esMap.keys_nodup).mpr fun h =>
    AList.mem_keys.trans ((hi.mem_iff h).trans AList.mem_keys.symm)).length_eq

/-- A write to the store of `h` keeps the relation, with the table of `h` the
    store's new view. -/
theorem Implements.storeWrite {reg' : Registry σ ω} {h : String} {kb : σ}
    (hi : Implements b view reg A) (hw : reg.StoreWrite h reg')
    (hkb : reg'.esMap.lookup h = some kb) :
    Implements b view reg' (A.replace h (view kb)) := by
  have hA : h ∈ A := (hi.mem_iff h).mpr ((hw.mem_esMap h).mp (mem_of_lookup hkb))
  refine ⟨fun h' => ?_, hi.buildable.storeWrite hw, fun h' opt ho => hi.optimizers h' opt ?_⟩
  · by_cases e : h' = h
    · subst e
      rw [lookup_replace_self _ hA, hkb]
      rfl
    · rw [lookup_replace_ne _ e, hi.tables h', hw.lookup_ne h' e]
  · rwa [hw.gdMap_eq] at ho

/-- The optimizer of a session is the one its configuration builds, so the
    design's error text is that optimizer's. -/
theorem Implements.applyMessage (init : String → V) (rule : V → V → V)
    (hi : Implements b view reg A) {h : String} {opt : ω} (hopt : reg.gdMap.lookup h = some opt)
    (vs gs : List V) : (b.design view init rule).applyMessage h vs gs = (b.apply opt vs gs).2 := by
  obtain ⟨gd, hgd, hc⟩ := hi.optimizers h opt hopt
  simp only [Backend.design, hgd, hc]

variable (init : String → V) (rule : V → V → V)

/-- A start keeps the relation: it gives `h` the table of the store it makes,
    and keeps every other entry. -/
theorem Implements.start (hi : Implements b view reg A) (h : String) :
    Implements b view (startSessionIfNecessary b reg h).2
      ((b.design view init rule).start A h) := by
  have ha := addsOnly_startSessionIfNecessary b reg h
  refine ⟨fun h' => ?_, hi.buildable.started h, fun h' opt ho => ?_⟩
  · rw [Design.lookup_start]
    split_ifs with e
    · subst e
      rw [lookup_esMap_startSessionIfNecessary, hi.tables h', Option.map_or']
      rfl
    · rw [hi.tables h', (Registry.slot_eq_iff.mp (ha.slot_ne e)).1]
  · by_cases e : h' = h
    · -- The optimizer it had, or the one the factory makes now.
      subst e
      rw [lookup_gdMap_startSessionIfNecessary] at ho
      rcases Option.or_eq_some.mp ho with ho | ⟨-, ho⟩
      · exact hi.optimizers h' opt ho
      · split_ifs at ho
        exact Option.bind_eq_some.mp ho
    · exact hi.optimizers h' opt ((Registry.slot_eq_iff.mp (ha.slot_ne e)).2 ▸ ho)

/-- A start in both models. It fails, with the abstract start's status and
    tables; or it succeeds, leaves `h` a store whose view is the abstract
    table, and an optimizer exactly when the configuration asks for one. -/
theorem Implements.started_cases (hi : Implements b view reg A) (h : String) :
    ((startSessionIfNecessary b reg h).1.code ≠ .ok ∧
      ∀ fail next, (b.design view init rule).started A h fail next =
        ⟨(startSessionIfNecessary b reg h).1, fail, (b.design view init rule).start A h⟩) ∨
    ((startSessionIfNecessary b reg h).1 = Status.OK ∧ ∃ kb,
      (startSessionIfNecessary b reg h).2.esMap.lookup h = some kb ∧
      (∀ fail next, (b.design view init rule).started A h fail next =
        next ((b.design view init rule).start A h) (view kb)) ∧
      (h ∈ (startSessionIfNecessary b reg h).2.gdMap ↔
        (b.design view init rule).requested h = true)) := by
  have hst := hi.buildable.fst_startSessionIfNecessary h
  have hlook := (hi.start init rule h).tables h
  obtain ⟨hes, hgd⟩ := hi.buildable.mem_startSessionIfNecessary h
  cases hs : storeMade b h
  · -- The store factory fails: `h` has no table.
    have hn : (startSessionIfNecessary b reg h).2.esMap.lookup h = none :=
      AList.lookup_eq_none.mpr fun hm => by simpa [hs] using hes.mp hm
    rw [hn, Option.map_none'] at hlook
    have hkb : configStatus b h = Status.knowledgeBankFailed := by simp [configStatus, hs]
    refine .inl ⟨by rw [hst, hkb]; decide, fun fail next => ?_⟩
    simp only [Design.started, hlook, hst, hkb]
  · obtain ⟨kb, hkb⟩ := Option.isSome_iff_exists.mp (AList.lookup_isSome.mpr (hes.mpr hs))
    rw [hkb, Option.map_some'] at hlook
    rw [configStatus_of_storeMade init rule hs] at hst
    cases hf : (b.design view init rule).optimizerFails h
    · -- Both factories succeed: the rest of the handler runs.
      refine .inr ⟨by rw [hst, hf]; rfl, kb, hkb, fun fail next => ?_, ?_⟩
      · exact Design.started_of_lookup _ hlook hf fail next
      · rw [hgd, hs, optimizerMade_iff init rule hf]
        exact and_iff_right rfl
    · refine .inl ⟨by rw [hst, hf]; decide, fun fail next => ?_⟩
      simp only [Design.started, hlook, hf, hst, if_true]

end Implements

section Gradients

variable {K G σ ω V : Type} {b : Backend K G σ ω V} {view : σ → String → Option V}
  {init : String → V} {rule : V → V → V}

/-- The gradient branch of `Update` on a session with a store, in both
    models: it reports the abstract branch's status, and leaves a store whose
    view is the abstract branch's table. -/
theorem writeGradients_design (hb : MapSemantics b view init) (happly : PairwiseApply b rule)
    {reg : Registry σ ω} {A : Tables V} {request : UpdateRequest V} {kb : σ}
    (hi : Implements b view reg A) (hkb : reg.esMap.lookup request.sessionHandle = some kb)
    (hreq : request.sessionHandle ∈ reg.gdMap ↔
      (b.design view init rule).requested request.sessionHandle = true) :
    ∃ r, writeGradients b reg request = some r ∧
      r.status = ((b.design view init rule).gradientStep request.sessionHandle
        request.gradients (view kb)).1 ∧
      Implements b view r.registry (A.replace request.sessionHandle
        ((b.design view init rule).gradientStep request.sessionHandle
          request.gradients (view kb)).2) := by
  have hsame := hi.storeWrite (.refl request.sessionHandle reg) hkb
  unfold writeGradients Design.gradientStep
  by_cases hne : request.gradients.keys = []
  · rw [if_pos hne, if_pos hne]
    exact ⟨_, rfl, rfl, hsame⟩
  rw [if_neg hne, if_neg hne]
  by_cases hg : request.sessionHandle ∈ reg.gdMap
  swap
  · -- No optimizer: the branch stops at lines 135–137.
    have hr : (b.design view init rule).requested request.sessionHandle = false := by
      simpa using mt hreq.mpr hg
    simp only [gradientsSection, if_pos hg, hr, if_true]
    exact ⟨_, rfl, rfl, hsame⟩
  obtain ⟨opt, hopt⟩ := Option.isSome_iff_exists.mp (AList.lookup_isSome.mpr hg)
  have hr : ¬(b.design view init rule).requested request.sessionHandle = false := by
    simpa using hreq.mp hg
  simp only [gradientsSection, if_neg (not_not.mpr hg), hkb, Option.some_bind,
    fetchValid_of_mapSemantics hb, if_neg hr]
  split_ifs with hnone hall
  · exact ⟨_, rfl, rfl, hsame⟩
  · -- Every key has a vector: the optimizer applies every gradient.
    have hlen : (request.gradients.keys.filterMap (view kb)).length =
        request.gradients.values.length := by
      rw [ProtoMap.length_values]; exact List.filterMap_length_eq_length.mpr hall
    have hv : request.gradients.keys.filterMap (view kb) ≠ [] := by
      simpa [List.filterMap_eq_nil_iff, Option.isSome_iff_ne_none] using hnone
    simp only [List.filter_eq_self.mpr hall, hopt, Option.some_bind,
      applyGradients_of_pairwise happly opt hv, if_pos hlen, Option.map_some']
    refine ⟨_, rfl, rfl, ?_⟩
    have hw := hi.storeWrite (Registry.storeWrite_setStore reg request.sessionHandle
      (b.batchUpdate kb request.gradients.keys (List.zipWith rule
        (request.gradients.keys.filterMap (view kb)) request.gradients.values)))
      (Registry.lookup_setStore_self _ (mem_of_lookup hkb))
    rwa [hb.view_batchUpdate _ _ _ (by simp [hlen]), overwrite_applyEach rule (view kb) _ hall]
      at hw
  · -- Some key has none: the optimizer rejects lists of different lengths.
    have hv : request.gradients.keys.filterMap (view kb) ≠ [] := by
      simpa [List.filterMap_eq_nil_iff, Option.isSome_iff_ne_none] using hnone
    have hlen : (request.gradients.keys.filterMap (view kb)).length ≠
        request.gradients.values.length := by
      rw [ProtoMap.length_values]; exact mt List.filterMap_length_eq_length.mp hall
    simp only [hopt, Option.some_bind, applyGradients_of_pairwise happly opt hv, if_neg hlen]
    exact ⟨_, rfl, by rw [hi.applyMessage init rule hopt], hsame⟩

end Gradients

section Serve

variable {K G σ ω V : Type} {b : Backend K G σ ω V} {view : σ → String → Option V}
  {init : String → V} {rule : V → V → V}

/-- One request other than `Update` in both models: the service gives the
    status and the answer the tables give, and leaves a registry that
    implements the tables they leave. The optimizer plays no part. -/
theorem Implements.serve_agrees_of_reads (rule : V → V → V) (hb : MapSemantics b view init)
    {reg : Registry σ ω}
    {A : Tables V} (hi : Implements b view reg A) {rq : Request K G V} (hr : rq.reads = true) :
    ∃ r, serve b reg rq = some r ∧ r.status = ((b.design view init rule).serve A rq).status ∧
      r.response.answer = ((b.design view init rule).serve A rq).answer ∧
      Implements b view r.registry ((b.design view init rule).serve A rq).tables := by
  cases rq with
  | startSession request =>
    by_cases hn : request.name = ""
    · simp only [serve, startSession, Design.serve, if_pos hn]
      exact ⟨_, rfl, rfl, rfl, hi⟩
    simp only [serve, startSession, Design.serve, design_handleOf, if_neg hn]
    rcases hi.started_cases init rule (b.serializeAsString request) with
      ⟨hok, hst⟩ | ⟨hok, kb, -, hst, -⟩
    · rw [hst, if_neg hok]
      exact ⟨_, rfl, rfl, rfl, hi.start init rule _⟩
    · rw [hst, if_pos (by rw [hok]; rfl)]
      exact ⟨_, rfl, rfl, rfl, hi.start init rule _⟩
  | lookup request =>
    obtain ⟨h, keys, update⟩ := request
    have hempty : (Response.lookup ⟨∅⟩ : Response V).answer = .lookup fun _ => none :=
      congrArg Answer.lookup (funext AList.lookup_empty)
    by_cases hh : h = ""
    · simp only [serve, lookup, Design.serve, if_pos hh]
      exact ⟨_, rfl, rfl, hempty, hi⟩
    by_cases hk : keys = []
    · simp only [serve, lookup, Design.serve, if_neg hh, if_pos hk]
      exact ⟨_, rfl, rfl, hempty, hi⟩
    simp only [serve, lookup, Design.serve, if_neg hh, if_neg hk]
    rcases hi.started_cases init rule h with ⟨hok, hst⟩ | ⟨hok, kb, hkb, hst, -⟩
    · rw [hst, if_neg hok]
      exact ⟨_, rfl, rfl, hempty, hi.start init rule h⟩
    rw [hst, if_pos (by rw [hok]; rfl)]
    cases update with
    | false =>
      -- A pure lookup reads the table.
      obtain ⟨r, hr, hst', hreg, htable⟩ := lookupSection_read hb hkb keys
      rw [hr]
      exact ⟨_, rfl, hst', congrArg Answer.lookup (funext htable), hreg ▸ hi.start init rule h⟩
    | true =>
      -- A lookup with update writes the table with the missing keys created.
      obtain ⟨r, kb', hr, hst', hreg, hview, htable⟩ := lookupSection_create hb hkb keys
      have hi' := (hi.start init rule h).storeWrite (Registry.storeWrite_setStore _ h kb')
        (Registry.lookup_setStore_self kb' (mem_of_lookup hkb))
      rw [hview, ← hreg] at hi'
      simp only [hview] at htable
      rw [hr]
      exact ⟨_, rfl, hst', congrArg Answer.lookup (funext htable), hi'⟩
  | update request => cases hr
  | knowledgeBankSize => exact ⟨_, rfl, rfl, congrArg _ hi.length_keys.symm, hi⟩

/-- One request in both models: the service gives the status and the answer
    the tables give, and leaves a registry that implements the tables they
    leave. -/
theorem Implements.serve_agrees (hb : MapSemantics b view init) (happly : PairwiseApply b rule)
    {reg : Registry σ ω} {A : Tables V} (hi : Implements b view reg A) (rq : Request K G V) :
    ∃ r, serve b reg rq = some r ∧ r.status = ((b.design view init rule).serve A rq).status ∧
      r.response.answer = ((b.design view init rule).serve A rq).answer ∧
      Implements b view r.registry ((b.design view init rule).serve A rq).tables := by
  cases rq with
  | update request =>
    by_cases hh : request.sessionHandle = ""
    · simp only [serve, update, Design.serve, if_pos hh]
      exact ⟨_, rfl, rfl, rfl, hi⟩
    by_cases hne : request.values.keys = [] ∧ request.gradients.keys = []
    · simp only [serve, update, Design.serve, if_neg hh, if_pos hne]
      exact ⟨_, rfl, rfl, rfl, hi⟩
    simp only [serve, update, Design.serve, if_neg hh, if_neg hne]
    rcases hi.started_cases init rule request.sessionHandle with
      ⟨hok, hst⟩ | ⟨hok, kb, hkb, hst, hreq⟩
    · rw [hst, if_neg hok]
      exact ⟨_, rfl, rfl, rfl, hi.start init rule _⟩
    rw [hst, if_pos (by rw [hok]; rfl)]
    -- The values branch writes the table, then the gradient branch acts on it.
    obtain ⟨reg₁, kb₁, hw, hkb₁, hgd, hv⟩ := writeValues_of_mapSemantics hb hkb
    have hi₁ := (hi.start init rule request.sessionHandle).storeWrite (writeValues_registry hw) hkb₁
    obtain ⟨r, hr, hst', hi₂⟩ := writeGradients_design hb happly hi₁ hkb₁ (by rw [hgd]; exact hreq)
    rw [hw, Option.some_bind, hr, ← hv]
    refine ⟨_, rfl, hst', rfl, hi₂.congr fun h' => ?_⟩
    by_cases e : h' = request.sessionHandle
    · have hm : request.sessionHandle ∈ (b.design view init rule).start A request.sessionHandle :=
        ((hi.start init rule _).mem_iff _).mpr (mem_of_lookup hkb)
      rw [e, lookup_replace_self _ hm, lookup_replace_self _ (AList.mem_replace.mpr hm)]
    · rw [lookup_replace_ne _ e, lookup_replace_ne _ e, lookup_replace_ne _ e]
  | _ => exact hi.serve_agrees_of_reads rule hb rfl

/-- A run in both models: from registries and tables that agree, the service
    runs every request and leaves a registry that implements the tables the
    abstract run leaves. -/
theorem Implements.serveAll_agrees (hb : MapSemantics b view init) (happly : PairwiseApply b rule) :
    ∀ (rqs : List (Request K G V)) {reg : Registry σ ω} {A : Tables V}, Implements b view reg A →
      ∃ reg', serveAll b reg rqs = some reg' ∧
        Implements b view reg' ((b.design view init rule).serveAll A rqs)
  | [], reg, _, hi => ⟨reg, rfl, hi⟩
  | rq :: rqs, _, _, hi => by
    obtain ⟨r, hr, -, -, hi₁⟩ := hi.serve_agrees hb happly rq
    obtain ⟨reg', hrun, hi'⟩ := Implements.serveAll_agrees hb happly rqs hi₁
    exact ⟨reg', by rw [serveAll, hr, Option.some_bind]; exact hrun, hi'⟩

end Serve

/-- The service implements the tables. For a store that behaves as a finite
    map through `view`, with `init` the vector a lookup with update creates,
    and an optimizer that applies `rule` pair by pair: every run from the
    constructor's state leaves a registry that implements the tables the
    abstract run leaves, and there a request of any kind gets the status and
    the answer the abstract service gives, and leaves a registry that
    implements the tables it leaves. -/
theorem serve_refines {K G σ ω V : Type} (b : Backend K G σ ω V) (view : σ → String → Option V)
    (init : String → V) (rule : V → V → V) (hb : MapSemantics b view init)
    (happly : PairwiseApply b rule) (rqs : List (Request K G V)) :
    ∃ reg, serveAll b Registry.empty rqs = some reg ∧
      Implements b view reg ((b.design view init rule).serveAll ∅ rqs) ∧
      ∀ rq, ∃ r, serve b reg rq = some r ∧
        r.status = ((b.design view init rule).serve
          ((b.design view init rule).serveAll ∅ rqs) rq).status ∧
        r.response.answer = ((b.design view init rule).serve
          ((b.design view init rule).serveAll ∅ rqs) rq).answer ∧
        Implements b view r.registry ((b.design view init rule).serve
          ((b.design view init rule).serveAll ∅ rqs) rq).tables := by
  obtain ⟨reg, hrun, hi⟩ := Implements.serveAll_agrees hb happly rqs implements_empty
  exact ⟨reg, hrun, hi, hi.serve_agrees hb happly⟩

/-- The run `mixedRun` on the in-memory store. -/
theorem serve_refines_mixedRun :
    MapSemantics okBackend id (fun _ => 0) ∧ PairwiseApply okBackend (· - ·) ∧
    ∃ reg, serveAll okBackend Registry.empty mixedRun = some reg ∧
      Implements okBackend id reg ((okBackend.design id (fun _ => 0) (· - ·)).serveAll ∅ mixedRun) ∧
      ∀ rq, ∃ r, serve okBackend reg rq = some r ∧
        r.status = ((okBackend.design id (fun _ => 0) (· - ·)).serve
          ((okBackend.design id (fun _ => 0) (· - ·)).serveAll ∅ mixedRun) rq).status ∧
        r.response.answer = ((okBackend.design id (fun _ => 0) (· - ·)).serve
          ((okBackend.design id (fun _ => 0) (· - ·)).serveAll ∅ mixedRun) rq).answer ∧
        Implements okBackend id r.registry ((okBackend.design id (fun _ => 0) (· - ·)).serve
          ((okBackend.design id (fun _ => 0) (· - ·)).serveAll ∅ mixedRun) rq).tables :=
  ⟨okBackend_mapSemantics, okBackend_pairwiseApply,
    serve_refines okBackend id (fun _ => 0) (· - ·) okBackend_mapSemantics okBackend_pairwiseApply
      mixedRun⟩

/-- The scenario of the gradient tests, on the tables: a lookup with update
    creates two zero vectors, and one gradient per key is applied. -/
example :
    (((okBackend.design id (fun _ => 0) (· - ·)).serveAll ∅
      [.lookup ⟨"emb", ["first", "second"], true⟩,
        .update ⟨"emb", ∅, ((∅ : ProtoMap Int).insert "first" 1).insert "second" 3⟩]).lookup
      "emb").map (fun t => [t "first", t "second", t "third"]) =
      some [some (-1), some (-3), none] := by
  decide

end Carls
