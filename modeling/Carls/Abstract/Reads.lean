import Carls.Abstract.Service

/-!
# Runs of Starts and Lookups

`StartSession`, `Lookup` and `KnowledgeBankSize` never overwrite a vector. A
start gives a handle a table only when it has none, and a lookup with update
creates the keys its table lacks, each with the vector `init` gives that key
whatever came before. So a run of such requests leaves each table in a form
that depends only on which requests the run holds, not on their order or how
often each comes (`Design.lookup_serveAll_of_reads`): the table the handle
had, or else the table of a new store, with a vector for every key some lookup
with update on it asked for, unless the optimizer factory fails, in which
case no lookup on it gets past its start.

`Update` is left out: its values overwrite what is there, so two updates of
one key leave what the later one wrote.

## Main definitions

* `Request.reads`: A request other than `Update`.
* `Design.created`: The keys a request creates in the table of a handle.
* `Design.settle`: A table as the lookups past their start leave it.
* `Design.afterReads`: The table a run of such requests leaves at a handle.

## Theorems

* `withCreated_append`, `withCreated_congr`: Creating keys in two rounds, and
  in any order.
* `Design.lookup_serve_of_reads`: One request on its own handle.
* `Design.afterReads_cons`: A run, one request at a time.
* `Design.lookup_serveAll_of_reads`: A run leaves the tables `afterReads` says.
* `Design.afterReads_congr`, `Design.afterReads_perm`: The table depends on
  which requests work on the handle and which keys they create, not on the
  order of the run.
* `Design.isSome_or_fresh_serveAll_of_reads`, `Design.status_serve_of_reads`:
  Such a run leaves every handle with a table, or a new store's, as it found
  it, so each such request gets the same status after it as before.
-/

namespace Carls

/-- A request other than `Update`: it starts a session, reads it, or creates
    the keys a table lacks, and never overwrites a vector. -/
def Request.reads {K G V : Type} : Request K G V → Bool
  | .update _ => false
  | _ => true

section Created

variable {V : Type} (view : String → Option V) (init : String → V)

@[simp] theorem withCreated_nil : withCreated view init [] = view := by
  funext k
  simp [withCreated]

/-- Creating `keys₁`, then `keys₂`, creates both. -/
theorem withCreated_append (keys₁ keys₂ : List String) :
    withCreated (withCreated view init keys₁) init keys₂ = withCreated view init (keys₁ ++ keys₂) := by
  funext k
  by_cases h₂ : k ∈ keys₂ <;> by_cases h₁ : k ∈ keys₁ <;> simp [withCreated, h₁, h₂]

/-- Which keys are created matters, not their order or how often each comes. -/
theorem withCreated_congr {keys₁ keys₂ : List String} (hk : ∀ k, k ∈ keys₁ ↔ k ∈ keys₂) :
    withCreated view init keys₁ = withCreated view init keys₂ := by
  funext k
  simp only [withCreated, hk]

end Created

/-- Falling back on `y` a second time, after `g`, changes nothing. -/
theorem map_or_or_self {α : Type} (x y : Option α) (g : α → α) :
    ((x.or y).map g).or y = (x.or y).map g := by
  cases x <;> cases y <;> rfl

namespace Design

variable {K G V : Type} (D : Design K G V)

/-- The keys request `rq` creates in the table of `h`: those of a lookup with
    update on `h` that passes its checks. -/
def created (h : String) : Request K G V → List String
  | .lookup r => if r.update ∧ D.handle (.lookup r : Request K G V) = some h then r.key else []
  | _ => []

/-- A table as the lookups past their start leave it: with `keys` created,
    unless the optimizer factory fails, when no lookup gets past its start. -/
def settle (h : String) (keys : List String) (t : String → Option V) : String → Option V :=
  if D.optimizerFails h then t else withCreated t D.init keys

/-- The table of `h` after a run of `rqs`, requests other than `Update`, from
    `A`: untouched if no request works on `h`, and otherwise the table it had,
    or else a new store's, settled with every key the run creates there. -/
def afterReads (A : Tables V) (rqs : List (Request K G V)) (h : String) :
    Option (String → Option V) :=
  if ∃ rq ∈ rqs, D.handle rq = some h then
    ((A.lookup h).or (D.fresh h)).map (D.settle h (rqs.flatMap (D.created h)))
  else A.lookup h

theorem created_of_handle_ne {rq : Request K G V} {h : String} (hne : D.handle rq ≠ some h) :
    D.created h rq = [] := by
  cases rq with
  | lookup r => exact if_neg fun hc => hne hc.2
  | _ => rfl

/-- A run with no request on `h` creates nothing there. -/
theorem flatMap_created_eq_nil {rqs : List (Request K G V)} {h : String}
    (hn : ¬∃ rq ∈ rqs, D.handle rq = some h) : rqs.flatMap (D.created h) = [] :=
  List.flatMap_eq_nil_iff.mpr fun rq hm => D.created_of_handle_ne fun e => hn ⟨rq, hm, e⟩

@[simp] theorem settle_nil (h : String) : D.settle h [] = id := by
  funext t
  simp [settle]

theorem settle_congr (h : String) {keys₁ keys₂ : List String} (hk : ∀ k, k ∈ keys₁ ↔ k ∈ keys₂) :
    D.settle h keys₁ = D.settle h keys₂ := by
  funext t
  rw [settle, settle, withCreated_congr _ _ hk]

theorem settle_settle (h : String) (keys₁ keys₂ : List String) (t : String → Option V) :
    D.settle h keys₂ (D.settle h keys₁ t) = D.settle h (keys₁ ++ keys₂) t := by
  unfold settle
  split_ifs
  · rfl
  · exact withCreated_append _ _ _ _

/-- A request other than `Update` on `h` leaves at `h` the table it had, or
    else a new store's, settled with the keys it creates. -/
theorem lookup_serve_of_reads (A : Tables V) {rq : Request K G V} {h : String}
    (hr : rq.reads = true) (hh : D.handle rq = some h) :
    (D.serve A rq).tables.lookup h =
      ((A.lookup h).or (D.fresh h)).map (D.settle h (D.created h rq)) := by
  have hstart : (D.start A h).lookup h = (A.lookup h).or (D.fresh h) := by
    rw [lookup_start, if_pos rfl]
  cases rq with
  | startSession r =>
    by_cases hn : r.name = ""
    · simp [handle, hn] at hh
    simp only [handle, if_neg hn, Option.some.injEq] at hh
    subst hh
    simp only [serve, if_neg hn, started, created, settle_nil, Option.map_id]
    split <;> (try split) <;> exact hstart
  | lookup r =>
    by_cases hc : r.sessionHandle = "" ∨ r.key = []
    · simp [handle, hc] at hh
    have hh' := hh
    simp only [handle, if_neg hc, Option.some.injEq] at hh'
    subst hh'
    rw [not_or] at hc
    simp only [serve, if_neg hc.1, if_neg hc.2, started, created, hh, and_true]
    rw [← hstart]
    -- The start leaves no table, the optimizer fails, or the lookup runs.
    cases ht : (D.start A r.sessionHandle).lookup r.sessionHandle with
    | none => simp [ht]
    | some t =>
      cases hf : D.optimizerFails r.sessionHandle
      · cases hu : r.update
        · simp [ht, settle, hf]
        · simp [lookup_replace_self _ (mem_of_lookup ht), settle, hf]
      · simp [ht, settle, hf]
  | update r => cases hr
  | knowledgeBankSize => cases hh

/-- One request more at the front of a run, seen at one handle. -/
theorem afterReads_cons (A : Tables V) {rq : Request K G V} (hr : rq.reads = true)
    (rqs : List (Request K G V)) (h : String) :
    D.afterReads (D.serve A rq).tables rqs h = D.afterReads A (rq :: rqs) h := by
  by_cases hh : D.handle rq = some h
  · -- The request starts `h`: the rest settles the table it leaves.
    have hl := D.lookup_serve_of_reads A hr hh
    have hfirst : ∃ rq' ∈ rq :: rqs, D.handle rq' = some h := ⟨rq, List.mem_cons_self _ _, hh⟩
    unfold afterReads
    rw [if_pos hfirst, hl, List.flatMap_cons]
    split_ifs with hrest
    · rw [map_or_or_self, Option.map_map]
      congr 1
      funext t
      exact D.settle_settle _ _ _ t
    · rw [D.flatMap_created_eq_nil hrest, List.append_nil]
  · -- The request leaves `h` alone and creates nothing there.
    have hl : (D.serve A rq).tables.lookup h = A.lookup h :=
      D.lookup_serve_ne A fun _ e he => hh (he ▸ e)
    simp only [afterReads, List.flatMap_cons, D.created_of_handle_ne hh, List.nil_append, hl,
      List.mem_cons, exists_eq_or_imp, hh, false_or]

/-- A run of requests other than `Update` leaves at every handle the table
    `afterReads` gives. -/
theorem lookup_serveAll_of_reads (h : String) :
    ∀ (A : Tables V) (rqs : List (Request K G V)), (∀ rq ∈ rqs, rq.reads = true) →
      (D.serveAll A rqs).lookup h = D.afterReads A rqs h
  | A, [], _ => by simp [serveAll, afterReads]
  | A, rq :: rqs, hr => by
    rw [serveAll, lookup_serveAll_of_reads h _ rqs fun rq' hm => hr rq' (List.mem_cons_of_mem _ hm),
      D.afterReads_cons A (hr rq (List.mem_cons_self _ _))]

/-- The table a run leaves depends only on whether some request works on the
    handle and on which keys the run creates there. -/
theorem afterReads_congr (A : Tables V) {rqs₁ rqs₂ : List (Request K G V)} {h : String}
    (ht : (∃ rq ∈ rqs₁, D.handle rq = some h) ↔ ∃ rq ∈ rqs₂, D.handle rq = some h)
    (hk : ∀ k, k ∈ rqs₁.flatMap (D.created h) ↔ k ∈ rqs₂.flatMap (D.created h)) :
    D.afterReads A rqs₁ h = D.afterReads A rqs₂ h := by
  simp only [afterReads, ht, D.settle_congr h hk]

/-- In particular, not on the order of the run. -/
theorem afterReads_perm (A : Tables V) {rqs₁ rqs₂ : List (Request K G V)} (hp : rqs₁.Perm rqs₂)
    (h : String) : D.afterReads A rqs₁ h = D.afterReads A rqs₂ h :=
  D.afterReads_congr A (by simp only [hp.mem_iff]) fun _ => (hp.flatMap_right _).mem_iff

/-- Falling back on a new store's table, a request other than `Update` leaves
    every handle with a table, or without one, as it found it. -/
theorem isSome_or_fresh_serve_of_reads (A : Tables V) {rq : Request K G V}
    (hr : rq.reads = true) (h : String) :
    (((D.serve A rq).tables.lookup h).or (D.fresh h)).isSome =
      ((A.lookup h).or (D.fresh h)).isSome := by
  by_cases hh : D.handle rq = some h
  · rw [D.lookup_serve_of_reads A hr hh, map_or_or_self, Option.isSome_map']
  · rw [D.lookup_serve_ne A fun h₀ e (he : h = h₀) => hh (he ▸ e)]

theorem isSome_or_fresh_serveAll_of_reads (h : String) :
    ∀ (A : Tables V) (rqs : List (Request K G V)), (∀ rq ∈ rqs, rq.reads = true) →
      (((D.serveAll A rqs).lookup h).or (D.fresh h)).isSome =
        ((A.lookup h).or (D.fresh h)).isSome
  | _, [], _ => rfl
  | A, rq :: rqs, hr =>
    (isSome_or_fresh_serveAll_of_reads h _ rqs fun rq' hm => hr rq' (List.mem_cons_of_mem _ hm)).trans
      (D.isSome_or_fresh_serve_of_reads A (hr rq (List.mem_cons_self _ _)) h)

/-- The status of a start whose rest returns `OK`: it depends only on whether
    the handle has a table or a new store's, and on the optimizer factory. -/
theorem status_started (A : Tables V) (h : String) (fail : Answer V)
    {next : Tables V → (String → Option V) → Outcome V}
    (hnext : ∀ A₁ t, (next A₁ t).status = Status.OK) :
    (D.started A h fail next).status =
      if ((A.lookup h).or (D.fresh h)).isSome then
        (if D.optimizerFails h then Status.optimizerFailed else Status.OK)
      else Status.knowledgeBankFailed := by
  have hstart : (D.start A h).lookup h = (A.lookup h).or (D.fresh h) := by
    rw [lookup_start, if_pos rfl]
  unfold started
  rw [hstart]
  cases (A.lookup h).or (D.fresh h) with
  | none => rfl
  | some t =>
    simp only [Option.isSome_some, if_true]
    split_ifs
    · rfl
    · exact hnext _ _

/-- A request other than `Update` gets the same status on tables where the
    same handles have a table or a new store's. -/
theorem status_serve_of_reads {A Y : Tables V} {rq : Request K G V} (hr : rq.reads = true)
    (hY : ∀ h, ((Y.lookup h).or (D.fresh h)).isSome = ((A.lookup h).or (D.fresh h)).isSome) :
    (D.serve Y rq).status = (D.serve A rq).status := by
  cases rq with
  | update => cases hr
  | knowledgeBankSize => rfl
  | _ =>
    simp only [serve]
    split_ifs
    all_goals first | rfl | (rw [D.status_started, D.status_started, hY] <;> intros <;> rfl)

end Design

end Carls
