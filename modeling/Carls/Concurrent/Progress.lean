import Carls.Concurrent.Safety
import Carls.Concurrent.Serializable

/-!
# Every Handler in Flight Returns

The handlers in flight always finish, whatever other handlers do between
their sections.

Each handler takes at most three lock-held sections: `Update` its start and
its two branches, `Lookup` its start and its section, `StartSession` its
start, `KnowledgeBankSize` its read. A section moves its handler forward or returns it, so the number of
sections left in a configuration drops with every section run, and no
interleaving of the sections of the handlers in flight goes on forever
(`sections_wellFounded`). Nor does one get stuck while a handler has not
returned: under every interleaving every handler is guarded
(`guarded_of_interleaved`), and a guarded handler can always run its next
section (`Stage.isSome_step`). So every interleaving of those sections can be
carried on until all of them have returned, and does end there.

## Main definitions

* `Stage.sectionsLeft`, `Config.sectionsLeft`: The sections still to run.

## Theorems

* `Stage.sectionsLeft_step`, `Sections.sectionsLeft_lt`: A section lowers the
  count.
* `sections_wellFounded`: No interleaving of sections runs forever.
* `Guarded.exists_sections`: A guarded handler that has not returned can run.
* `interleaved_finishes`: Under every interleaving, the handlers in flight
  all return.
-/

namespace Carls

section Measure

variable {V : Type}

/-- The lock-held sections a handler may still run. -/
def Stage.sectionsLeft : Stage V → Nat
  | .startSession _ => 1
  | .startLookup _ => 2
  | .startUpdate _ => 3
  | .lookup _ => 1
  | .values _ => 2
  | .gradients _ => 1
  | .knowledgeBankSize => 1
  | .done _ _ => 0

/-- The sections every handler in flight may still run. -/
def Config.sectionsLeft {σ ω : Type} (c : Config σ ω V) : Nat :=
  c.threads.foldr (fun s n => s.sectionsLeft + n) 0

theorem foldr_sectionsLeft (l : List (Stage V)) (n : Nat) :
    l.foldr (fun s m => s.sectionsLeft + m) n = l.foldr (fun s m => s.sectionsLeft + m) 0 + n := by
  induction l with
  | nil => simp
  | cons s l ih => simp only [List.foldr_cons, ih]; omega

theorem sectionsLeft_afterStart (status : Status) (next : Stage V) (failed : Response V) :
    (afterStart status next failed).sectionsLeft ≤ next.sectionsLeft := by
  unfold afterStart
  split_ifs
  · exact le_rfl
  · exact Nat.zero_le _

end Measure

section Progress

variable {K G σ ω V : Type} {b : Backend K G σ ω V}

/-- A section moves its handler forward. -/
theorem Stage.sectionsLeft_step {reg reg' : Registry σ ω} {s s' : Stage V}
    (hs : s.step b reg = some (s', reg')) : s'.sectionsLeft < s.sectionsLeft := by
  cases s with
  | startSession _ | startLookup _ | startUpdate _ =>
    obtain ⟨rfl, -⟩ := Prod.mk.inj (Option.some.inj hs)
    exact lt_of_le_of_lt (sectionsLeft_afterStart _ _ _) (by simp [Stage.sectionsLeft])
  | lookup _ | gradients _ =>
    obtain ⟨reply, -, ⟨⟩⟩ := Option.map_eq_some'.mp hs
    simp [Stage.sectionsLeft]
  | values _ =>
    obtain ⟨reg₁, -, ⟨⟩⟩ := Option.map_eq_some'.mp hs
    simp [Stage.sectionsLeft]
  | knowledgeBankSize =>
    obtain ⟨rfl, -⟩ := Prod.mk.inj (Option.some.inj hs)
    simp [Stage.sectionsLeft]
  | done _ _ => cases hs

theorem Sections.sectionsLeft_lt {c c' : Config σ ω V} (h : Sections b c c') :
    c'.sectionsLeft < c.sectionsLeft := by
  cases h with
  | run pre post hs =>
    have := Stage.sectionsLeft_step hs
    simp only [Config.sectionsLeft, List.foldr_append, List.foldr_cons]
    rw [foldr_sectionsLeft pre, foldr_sectionsLeft pre (_ + _)]
    omega

variable (b)

/-- No interleaving of the sections of the handlers in flight runs forever. -/
theorem sections_wellFounded : WellFounded fun c' c : Config σ ω V => Sections b c c' :=
  Subrelation.wf (fun h => Sections.sectionsLeft_lt h) (measure Config.sectionsLeft).wf

variable {b}

theorem Sections.guarded {c c' : Config σ ω V} (h : Sections b c c') (hc : Guarded c) :
    Guarded c' :=
  h.step.guarded hc

theorem Guarded.of_sections {c c' : Config σ ω V}
    (hrun : Relation.ReflTransGen (Sections b) c c') (hc : Guarded c) : Guarded c' := by
  induction hrun with
  | refl => exact hc
  | tail _ h ih => exact h.guarded ih

/-- A guarded configuration in which a handler has not returned can run that
    handler's next section. -/
theorem Guarded.exists_sections {c : Config σ ω V} (hg : Guarded c) {s : Stage V}
    (hs : s ∈ c.threads) (hf : s.finished = false) : ∃ c', Sections b c c' := by
  obtain ⟨pre, post, e⟩ := List.append_of_mem hs
  have hsome : (s.step b c.registry).isSome := Stage.isSome_step hf (hg s hs)
  obtain ⟨⟨s', reg'⟩, h⟩ := Option.isSome_iff_exists.mp hsome
  obtain ⟨reg, threads⟩ := c
  subst e
  exact ⟨_, .run pre post h⟩

/-- From a guarded configuration, the sections can be run until every handler
    has returned. -/
theorem Guarded.finishes {c : Config σ ω V} (hg : Guarded c) :
    ∃ c', Relation.ReflTransGen (Sections b) c c' ∧ ∀ s ∈ c'.threads, s.finished = true := by
  induction c using (sections_wellFounded b).induction with
  | _ c ih =>
    by_cases hall : ∀ s ∈ c.threads, s.finished = true
    · exact ⟨c, .refl, hall⟩
    · -- Run one section of a handler that has not returned, then the rest.
      push_neg at hall
      obtain ⟨s, hs, hf⟩ := hall
      obtain ⟨c₁, h₁⟩ := hg.exists_sections hs (Bool.not_eq_true _ ▸ hf)
      obtain ⟨c', hrun, hdone⟩ := ih c₁ h₁ (h₁.guarded hg)
      exact ⟨c', .head h₁ hrun, hdone⟩

end Progress

/-- Under every interleaving, the handlers in flight all return: no
    interleaving of their sections runs forever, one that cannot go on has
    every handler returned, and some interleaving returns them all. -/
theorem interleaved_finishes {K G σ ω V : Type} (b : Backend K G σ ω V) {c : Config σ ω V}
    (hc : Interleaved b c) :
    Acc (fun c₂ c₁ => Sections b c₁ c₂) c ∧
    (∀ c', Relation.ReflTransGen (Sections b) c c' → (∀ c'', ¬Sections b c' c'') →
      ∀ s ∈ c'.threads, s.finished = true) ∧
    ∃ c', Relation.ReflTransGen (Sections b) c c' ∧ ∀ s ∈ c'.threads, s.finished = true := by
  have hg := guarded_of_interleaved hc
  refine ⟨(sections_wellFounded b).apply c, fun c' hrun hstuck s hs => ?_, hg.finishes⟩
  -- A handler that has not returned could still run.
  by_contra hf
  obtain ⟨c'', h⟩ := (hg.of_sections hrun).exists_sections hs (Bool.not_eq_true _ ▸ hf)
  exact hstuck c'' h

/-- Both handlers of `twoSessions`, admitted on a fresh service. -/
theorem interleaved_finishes_twoSessions :
    Interleaved okBackend ⟨Registry.empty, twoSessions.map (Request.entry okBackend)⟩ ∧
    Acc (fun c₂ c₁ => Sections okBackend c₁ c₂)
      ⟨Registry.empty, twoSessions.map (Request.entry okBackend)⟩ ∧
    (∀ c', Relation.ReflTransGen (Sections okBackend)
        ⟨Registry.empty, twoSessions.map (Request.entry okBackend)⟩ c' →
      (∀ c'', ¬Sections okBackend c' c'') → ∀ s ∈ c'.threads, s.finished = true) ∧
    ∃ c', Relation.ReflTransGen (Sections okBackend)
        ⟨Registry.empty, twoSessions.map (Request.entry okBackend)⟩ c' ∧
      ∀ s ∈ c'.threads, s.finished = true :=
  have hc : Interleaved okBackend ⟨Registry.empty, twoSessions.map (Request.entry okBackend)⟩ :=
    .tail (.single (.spawn _ _ (.lookup ⟨"other", ["a"], true⟩))) (.spawn _ _ (.startSession embRequest))
  ⟨hc, interleaved_finishes okBackend hc⟩

end Carls
