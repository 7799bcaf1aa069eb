import Carls.Abstract.Atomic

/-!
# `KnowledgeBankSize` in the Serial Run

`KnowledgeBankSize` reads the number of stores under the reader lock and
writes nothing. It has no linearizing section of its own in the sense of
`Abstract.Atomic`: the count it reads includes the sessions of the threads
past a successful start whose request the serial run has not served yet. It
still has a place in the serial run, found after the fact.

Since it writes nothing, the run without its threads is a run of the other
threads from the same registry, ending on the same registry
(`sections_sizesErased`): each of its sections is a step the other threads
do not see. The count it read lies between the number of sessions at the
start of the run and at its end, and a request adds at most one session, so
some prefix of the serial run of the other requests has exactly that many
tables (`Design.exists_prefix_length_keys`). Putting each `KnowledgeBankSize`
there gives a serial run of all the requests that returns each one what its
thread returned (`Design.exists_insert_sizes`, `sections_linearizable`).

The place is one the run's order of sections may not give: the count is
taken when it is read, and a request whose start came earlier may take
effect later. So this is linearizability without real time; with requests
arriving one by one, `Abstract.History` leaves `KnowledgeBankSize` out, and
shows a run that no serial run matches in real time
(`history_count_breaks_realTime`).

## Main definitions

* `sessionThreads`: The threads of the requests other than
  `KnowledgeBankSize`.
* `SizeThread`: A thread of `KnowledgeBankSize`, at its entry or returned
  with a count between two bounds.
* `SizesErased`: The invariant of the run, seen without those threads.

## Theorems

* `Design.length_keys_serve`: A request adds at most one table.
* `Design.exists_prefix_length_keys`: A count between the counts before and
  after a serial run is the count at some point of it.
* `Design.exists_insert_sizes`: Counts of sessions find their places in a
  serial run.
* `SizesErased.step`, `sections_sizesErased`: The run without the threads of
  `KnowledgeBankSize`, along every interleaving.
* `sections_linearizable`: Every complete interleaving of atomic requests is a
  serial run.
-/

namespace Carls

theorem Request.eq_knowledgeBankSize {K G V : Type} {rq : Request K G V}
    (h : rq.countsSessions = true) : rq = .knowledgeBankSize := by
  cases rq <;> first | rfl | cases h

namespace Design

variable {K G V : Type} (D : Design K G V)

/-- A start adds at most one table. -/
theorem length_keys_start (Y : Tables V) (h : String) :
    Y.keys.length ≤ (D.start Y h).keys.length ∧ (D.start Y h).keys.length ≤ Y.keys.length + 1 := by
  unfold start
  split
  · next hl _ =>
    rw [AList.keys_insert, List.erase_of_not_mem
      (fun hk => AList.lookup_eq_none.mp hl (AList.mem_keys.mp hk)), List.length_cons]
    omega
  · omega

/-- A handler whose rest keeps the keys of the tables it is given keeps the
    keys of the start's. -/
theorem keys_started {A : Tables V} {h : String} {fail : Answer V}
    {next : Tables V → (String → Option V) → Outcome V}
    (hnext : ∀ t, (next (D.start A h) t).tables.keys = (D.start A h).keys) :
    (D.started A h fail next).tables.keys = (D.start A h).keys := by
  unfold started
  split
  · rfl
  · split_ifs
    · rfl
    · exact hnext _

/-- A request adds at most one table. -/
theorem length_keys_serve (Y : Tables V) (rq : Request K G V) :
    Y.keys.length ≤ (D.serve Y rq).tables.keys.length ∧
      (D.serve Y rq).tables.keys.length ≤ Y.keys.length + 1 := by
  suffices h : (D.serve Y rq).tables.keys = Y.keys ∨
      ∃ h, (D.serve Y rq).tables.keys = (D.start Y h).keys by
    rcases h with e | ⟨h, e⟩
    · rw [e]; omega
    · rw [e]; exact D.length_keys_start Y h
  cases rq with
  | startSession r =>
    simp only [serve]
    split_ifs
    · exact .inl rfl
    · exact .inr ⟨_, D.keys_started fun _ => rfl⟩
  | lookup r =>
    simp only [serve]
    split_ifs
    · exact .inl rfl
    · exact .inl rfl
    · exact .inr ⟨_, D.keys_started fun _ => AList.keys_replace _ _ _⟩
    · exact .inr ⟨_, D.keys_started fun _ => rfl⟩
  | update r =>
    simp only [serve]
    split_ifs
    · exact .inl rfl
    · exact .inl rfl
    · exact .inr ⟨_, D.keys_started fun _ => AList.keys_replace _ _ _⟩
  | knowledgeBankSize => exact .inl rfl

/-- A count of sessions between the counts before and after a serial run is
    the count at some point of it: each request adds at most one. -/
theorem exists_prefix_length_keys (A : Tables V) (lin : List (Request K G V)) {n : Nat}
    (h₀ : A.keys.length ≤ n) (h₁ : n ≤ (D.serveAll A lin).keys.length) :
    ∃ k ≤ lin.length, (D.serveAll A (lin.take k)).keys.length = n := by
  induction lin using List.reverseRecOn with
  | nil => exact ⟨0, le_rfl, le_antisymm h₀ h₁⟩
  | append_singleton lin rq ih =>
    rw [serveAll_append_singleton] at h₁
    by_cases hle : n ≤ (D.serveAll A lin).keys.length
    · obtain ⟨k, hk, e⟩ := ih hle
      refine ⟨k, by simp only [List.length_append, List.length_singleton]; omega, ?_⟩
      rwa [List.take_append_of_le_length hk]
    · -- The last request added the session that the count counts.
      have := (D.length_keys_serve (D.serveAll A lin) rq).2
      refine ⟨lin.length + 1, by simp, ?_⟩
      rw [List.take_of_length_le (by simp), serveAll_append_singleton]
      omega

/-- A `KnowledgeBankSize` put at a point of a serial run returns the number of
    sessions there, and changes nothing. -/
theorem results_insert_size (A : Tables V) (lin : List (Request K G V)) (k : Nat) :
    D.results A (lin.take k ++ .knowledgeBankSize :: lin.drop k) =
      D.results A (lin.take k) ++ (Status.OK, .knowledgeBankSize
        (D.serveAll A (lin.take k)).keys.length) :: D.results (D.serveAll A (lin.take k)) (lin.drop k) :=
  D.results_append _ _ _

/-- Counts of sessions, each between the counts before and after a serial
    run, find their places in it: the run with a `KnowledgeBankSize` put at
    each returns every other request what the run returns it, returns each
    `KnowledgeBankSize` its count, and leaves the same tables. -/
theorem exists_insert_sizes (A : Tables V) (lin₀ : List (Request K G V)) :
    ∀ L : List (Request K G V × Option (Status × Answer V)),
      (∀ p ∈ L, ∃ n, p = (.knowledgeBankSize, some (Status.OK, .knowledgeBankSize n)) ∧
        A.keys.length ≤ n ∧ n ≤ (D.serveAll A lin₀).keys.length) →
      ∃ lin, (lin.zip ((D.results A lin).map some)).Perm
          (L ++ lin₀.zip ((D.results A lin₀).map some)) ∧
        D.serveAll A lin = D.serveAll A lin₀
  | [], _ => ⟨lin₀, .refl _, rfl⟩
  | p :: L, hL => by
    obtain ⟨lin, hperm, hY⟩ :=
      exists_insert_sizes A lin₀ L fun p hp => hL p (List.mem_cons_of_mem _ hp)
    obtain ⟨n, rfl, hn₀, hn₁⟩ := hL p (List.mem_cons_self _ _)
    obtain ⟨k, -, hk⟩ := D.exists_prefix_length_keys A lin hn₀ (hY ▸ hn₁)
    refine ⟨lin.take k ++ .knowledgeBankSize :: lin.drop k, ?_, ?_⟩
    · -- The count goes in at place `k`; the others keep their replies.
      have hlen : (lin.take k).length = ((D.results A (lin.take k)).map some).length := by
        rw [List.length_map, D.length_results]
      have hsplit : (lin.take k).zip ((D.results A (lin.take k)).map some) ++
          (lin.drop k).zip ((D.results (D.serveAll A (lin.take k)) (lin.drop k)).map some) =
          lin.zip ((D.results A lin).map some) := by
        rw [← List.zip_append hlen, ← List.map_append, ← results_append, List.take_append_drop]
      rw [results_insert_size, hk, List.map_append, List.map_cons, List.zip_append hlen,
        List.zip_cons_cons]
      exact List.perm_middle.trans (.cons _ (by rw [hsplit]; exact hperm))
    · calc D.serveAll A (lin.take k ++ .knowledgeBankSize :: lin.drop k)
          = D.serveAll (D.serveAll A (lin.take k)) (lin.drop k) := D.serveAll_append _ _ _
        _ = D.serveAll A lin₀ := by rw [← serveAll_append, List.take_append_drop, hY]

end Design

section Erase

variable {K G σ ω V : Type} (b : Backend K G σ ω V)

/-- The threads of the requests other than `KnowledgeBankSize`. -/
def sessionThreads (rqs : List (Request K G V)) (ts : List (Stage V)) : List (Stage V) :=
  ((rqs.zip ts).filter fun p => !p.1.countsSessions).map Prod.snd

/-- A thread of `KnowledgeBankSize` at its entry, or returned with a count
    between `lo` and `hi`; any thread of another request. -/
def SizeThread (lo hi : Nat) (rq : Request K G V) (s : Stage V) : Prop :=
  rq.countsSessions = true →
    s = .knowledgeBankSize ∨ ∃ n, lo ≤ n ∧ n ≤ hi ∧ s = .done Status.OK (.knowledgeBankSize n)

/-- The invariant of a run of threads of `rqs` from `reg₀`, seen without the
    threads of `KnowledgeBankSize`. -/
structure SizesErased (reg₀ : Registry σ ω) (rqs : List (Request K G V)) (c : Config σ ω V) :
    Prop where
  /-- The other threads have run from their entries to where they stand, and
      the registry is where they left it. -/
  run : Relation.ReflTransGen (Sections b)
    ⟨reg₀, (rqs.filter fun rq => !rq.countsSessions).map (Request.entry b)⟩
    ⟨c.registry, sessionThreads rqs c.threads⟩
  /-- No session is lost. -/
  le : reg₀.knowledgeBankSize ≤ c.registry.knowledgeBankSize
  /-- Every count read so far lies between the counts at the start and now. -/
  sizes : List.Forall₂ (SizeThread reg₀.knowledgeBankSize c.registry.knowledgeBankSize) rqs
    c.threads

variable {b}

theorem SizeThread.mono {lo hi hi' : Nat} {rq : Request K G V} {s : Stage V} (hle : hi ≤ hi')
    (h : SizeThread lo hi rq s) : SizeThread lo hi' rq s := fun hc =>
  (h hc).imp_right fun ⟨n, h₁, h₂, e⟩ => ⟨n, h₁, h₂.trans hle, e⟩

theorem sessionThreads_middle {rpre rpost : List (Request K G V)} {pre post : List (Stage V)}
    (hl : rpre.length = pre.length) (rq : Request K G V) (s : Stage V) :
    sessionThreads (rpre ++ rq :: rpost) (pre ++ s :: post) =
      sessionThreads rpre pre ++ (if rq.countsSessions then [] else [s]) ++
        sessionThreads rpost post := by
  simp only [sessionThreads, List.zip_append hl, List.zip_cons_cons, List.filter_append,
    List.filter_cons, List.map_append]
  cases rq.countsSessions <;> simp

theorem sessionThreads_entries :
    ∀ rqs : List (Request K G V), sessionThreads rqs (rqs.map (Request.entry b)) =
      (rqs.filter fun rq => !rq.countsSessions).map (Request.entry b)
  | [] => rfl
  | rq :: rqs => by
    have ih := sessionThreads_entries rqs
    simp only [sessionThreads] at ih ⊢
    cases h : rq.countsSessions <;> simp [List.filter_cons, h, ih]

theorem mem_of_mem_sessionThreads {rqs : List (Request K G V)} {ts : List (Stage V)}
    {s : Stage V} (hs : s ∈ sessionThreads rqs ts) : s ∈ ts := by
  obtain ⟨p, hp, rfl⟩ := List.mem_map.mp hs
  exact (List.of_mem_zip (List.mem_filter.mp hp).1).2

/-- No section loses a session. -/
theorem Stage.knowledgeBankSize_le_step {reg reg' : Registry σ ω} {s s' : Stage V}
    (hs : s.step b reg = some (s', reg')) : reg.knowledgeBankSize ≤ reg'.knowledgeBankSize := by
  obtain ⟨-, rfl⟩ | ⟨h, -, rfl | hw⟩ := Stage.step_registry hs
  · exact le_rfl
  · exact (knowledgeBankSize_startSessionIfNecessary b reg h).1
  · exact hw.knowledgeBankSize_eq.ge

theorem sizesErased_start (reg₀ : Registry σ ω) (rqs : List (Request K G V)) :
    SizesErased b reg₀ rqs ⟨reg₀, rqs.map (Request.entry b)⟩ := by
  refine ⟨?_, le_rfl, List.forall₂_map_right_iff.mpr (List.forall₂_same.mpr fun rq _ hc => ?_)⟩
  · rw [sessionThreads_entries]
  · rw [Request.eq_knowledgeBankSize hc]
    exact .inl rfl

/-- One section keeps the invariant: a thread of `KnowledgeBankSize` reads
    the count and leaves the registry, and any other thread's section is a
    section of the run without them. -/
theorem SizesErased.step {reg₀ reg reg' : Registry σ ω} {rqs : List (Request K G V)}
    {pre post : List (Stage V)} {s s' : Stage V} (he : SizesErased b reg₀ rqs ⟨reg, pre ++ s :: post⟩)
    (hs : s.step b reg = some (s', reg')) : SizesErased b reg₀ rqs ⟨reg', pre ++ s' :: post⟩ := by
  obtain ⟨rpre, rq, rpost, rfl, hpre, hrq, hpost⟩ := forall₂_append_cons he.sizes
  have hle := Stage.knowledgeBankSize_le_step hs
  have hl := hpre.length_eq
  cases hc : rq.countsSessions
  · -- Another request's section, seen in the run without the counts.
    refine ⟨?_, he.le.trans hle, List.rel_append (hpre.imp fun _ _ => SizeThread.mono hle)
      (.cons (fun e => absurd e (by simp [hc])) (hpost.imp fun _ _ => SizeThread.mono hle))⟩
    have hrun := he.run
    simp only [sessionThreads_middle hl, hc, if_false, Bool.false_eq_true, List.append_assoc,
      List.singleton_append] at hrun ⊢
    exact hrun.tail (Sections.run _ _ hs)
  · -- A count: it reads the registry's, and changes nothing.
    rcases hrq hc with rfl | ⟨n, -, -, rfl⟩
    · obtain ⟨rfl, rfl⟩ := Prod.mk.inj (Option.some.inj hs)
      refine ⟨?_, he.le, List.rel_append hpre (.cons (fun _ => .inr ⟨_, he.le, le_rfl, rfl⟩) hpost)⟩
      simpa only [sessionThreads_middle hl, hc, if_true] using he.run
    · cases hs

/-- Along every interleaving, the run without the threads of
    `KnowledgeBankSize` is a run of the others, and every count read lies
    between the counts at the start and at the end. -/
theorem sections_sizesErased {reg₀ : Registry σ ω} {rqs : List (Request K G V)}
    {c : Config σ ω V}
    (hrun : Relation.ReflTransGen (Sections b) ⟨reg₀, rqs.map (Request.entry b)⟩ c) :
    SizesErased b reg₀ rqs c := by
  induction hrun with
  | refl => exact sizesErased_start reg₀ rqs
  | tail _ hs ih =>
    cases hs with
    | run pre post hstep => exact ih.step hstep

/-- The requests zipped with their replies: those of `KnowledgeBankSize`,
    then the others with the replies of `sessionThreads`. -/
theorem zip_reply_perm :
    ∀ {rqs : List (Request K G V)} {ts : List (Stage V)}, rqs.length = ts.length →
      (rqs.zip (ts.map Stage.reply)).Perm
        (((rqs.zip ts).filter fun p => p.1.countsSessions).map (fun p => (p.1, p.2.reply)) ++
          (rqs.filter fun rq => !rq.countsSessions).zip ((sessionThreads rqs ts).map Stage.reply))
  | [], [], _ => .refl _
  | rq :: rqs, s :: ts, hl => by
    have ih := zip_reply_perm (Nat.succ.inj hl)
    simp only [sessionThreads] at ih ⊢
    cases hc : rq.countsSessions
    · simpa [List.filter_cons, hc] using (ih.cons _).trans List.perm_middle.symm
    · simpa [List.filter_cons, hc] using ih

end Erase

section Linearizable

variable {K G σ ω V : Type} {b : Backend K G σ ω V} {view : σ → String → Option V}
  {init : String → V} {rule : V → V → V}

/-- Every thread of `KnowledgeBankSize` that has returned returned a count
    between the numbers of tables at the start and at the end. -/
theorem sizes_of_sizesErased {reg₀ : Registry σ ω} {rqs : List (Request K G V)}
    {c : Config σ ω V} {A A' : Tables V} (he : SizesErased b reg₀ rqs c)
    (hi : Implements b view reg₀ A) (hi' : Implements b view c.registry A')
    (hdone : ∀ s ∈ c.threads, s.finished = true) :
    ∀ p ∈ ((rqs.zip c.threads).filter fun p => p.1.countsSessions).map
        (fun p => (p.1, p.2.reply)),
      ∃ n, p = (.knowledgeBankSize, some (Status.OK, .knowledgeBankSize n)) ∧
        A.keys.length ≤ n ∧ n ≤ A'.keys.length := by
  intro p hp
  obtain ⟨⟨rq, s⟩, hq, rfl⟩ := List.mem_map.mp hp
  obtain ⟨hz, hc⟩ := List.mem_filter.mp hq
  rcases (List.forall₂_iff_zip.mp he.sizes).2 hz hc with rfl | ⟨n, h₁, h₂, rfl⟩
  · cases hdone _ (List.of_mem_zip hz).2
  · rw [Request.eq_knowledgeBankSize hc]
    exact ⟨n, rfl, hi.length_keys ▸ h₁, hi'.length_keys ▸ h₂⟩

/-- Atomic requests, `KnowledgeBankSize` among them, admitted together: every
    complete interleaving of their sections is a serial run that returns each
    request what its thread returned. The optimizer matters only when some
    request is an `Update`. -/
theorem linearizable_of_sections (hb : MapSemantics b view init) {reg₀ : Registry σ ω}
    {A : Tables V} (hi : Implements b view reg₀ A) (rqs : List (Request K G V))
    (happly : ∀ rq ∈ rqs, rq.reads = false → PairwiseApply b rule)
    (hat : ∀ rq ∈ rqs, rq.atomic = true) {c : Config σ ω V}
    (hrun : Relation.ReflTransGen (Sections b) ⟨reg₀, rqs.map (Request.entry b)⟩ c)
    (hdone : ∀ s ∈ c.threads, s.finished = true) :
    ∃ lin : List (Request K G V),
      (lin.zip (((b.design view init rule).results A lin).map some)).Perm
        (rqs.zip (c.threads.map Stage.reply)) ∧
      Implements b view c.registry ((b.design view init rule).serveAll A lin) := by
  have he := sections_sizesErased hrun
  -- The other requests make a serial run of their own.
  obtain ⟨lin₀, hl⟩ := linearized_of_sections hb hi _
    (fun rq hrq => happly rq (List.mem_filter.mp hrq).1)
    (fun rq hrq =>
      let ⟨hm, hc⟩ := List.mem_filter.mp hrq
      ⟨hat rq hm, by simpa using hc⟩) he.run
  obtain ⟨hperm₀, hi₀⟩ := hl.finished fun s hs => hdone s (mem_of_mem_sessionThreads hs)
  -- Each count goes in at a place of it with that many tables.
  obtain ⟨lin, hperm, hY⟩ := (b.design view init rule).exists_insert_sizes A lin₀ _
    (sizes_of_sizesErased he hi hi₀ hdone)
  exact ⟨lin, hperm.trans ((hperm₀.append_left _).trans
    (zip_reply_perm he.sizes.length_eq).symm), hY ▸ hi₀⟩

end Linearizable

/-- Two updates of session `emb`: one writes values only, the other applies
    gradients only. -/
def twoUpdates : List (Request Unit Unit Int) :=
  [.update ⟨"emb", (∅ : ProtoMap Int).insert "a" 5, ∅⟩,
    .update ⟨"emb", ∅, (∅ : ProtoMap Int).insert "a" 1⟩]

/-- The registry after the interleaving of `twoUpdates` in which both starts
    run, then the second update's values branch, which has nothing to write,
    the first's, the second's gradient branch, and the first's, which has
    nothing to apply. -/
def twoUpdatesRegistry : Registry (String → Option Int) Unit :=
  let started := (startSessionIfNecessary okBackend
    (startSessionIfNecessary okBackend Registry.empty "emb").2 "emb").2
  let written := (writeValues okBackend started
    ⟨"emb", (∅ : ProtoMap Int).insert "a" 5, ∅⟩).getD Registry.empty
  ((writeGradients okBackend written ⟨"emb", ∅, (∅ : ProtoMap Int).insert "a" 1⟩).map
    Reply.registry).getD Registry.empty

-- The serial run puts the gradient step after the write it started before.
example : (twoUpdatesRegistry.esMap.lookup "emb").map (· "a") = some (some 4) := rfl

/-- `twoUpdates`, then a `KnowledgeBankSize`. -/
def twoUpdatesAndSize : List (Request Unit Unit Int) :=
  twoUpdates ++ [.knowledgeBankSize]

/-- The threads of `twoUpdatesAndSize` once all returned. -/
def twoUpdatesThreads : List (Stage Int) :=
  [.done Status.OK .update, .done Status.OK .update, .done Status.OK (.knowledgeBankSize 1)]

/-- Both starts, then the branches in the order `twoUpdatesRegistry` names,
    then the count. -/
theorem twoUpdates_sections :
    Relation.ReflTransGen (Sections okBackend)
      ⟨Registry.empty, twoUpdatesAndSize.map (Request.entry okBackend)⟩
      ⟨twoUpdatesRegistry, twoUpdatesThreads⟩ :=
  .tail (.tail (.tail (.tail (.tail (.tail
    (.single (Sections.run []
      [.startUpdate ⟨"emb", ∅, (∅ : ProtoMap Int).insert "a" 1⟩, .knowledgeBankSize] rfl))
    (Sections.run [.values ⟨"emb", (∅ : ProtoMap Int).insert "a" 5, ∅⟩] [.knowledgeBankSize] rfl))
    (Sections.run [.values ⟨"emb", (∅ : ProtoMap Int).insert "a" 5, ∅⟩] [.knowledgeBankSize] rfl))
    (Sections.run [] [.gradients ⟨"emb", ∅, (∅ : ProtoMap Int).insert "a" 1⟩, .knowledgeBankSize]
      rfl))
    (Sections.run [.gradients ⟨"emb", (∅ : ProtoMap Int).insert "a" 5, ∅⟩] [.knowledgeBankSize]
      rfl))
    (Sections.run [] [.done Status.OK .update, .knowledgeBankSize] rfl))
    (Sections.run [.done Status.OK .update, .done Status.OK .update] [] rfl)

end Carls
