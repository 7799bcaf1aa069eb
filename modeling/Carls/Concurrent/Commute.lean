import Carls.Concurrent.Threads
import Carls.Theory.Isolation

/-!
# Sections on Different Sessions Commute

`map_mu_` protects the maps, not the objects in them: a section on one
session reads and writes only that session's entries. So two sections on
different sessions are independent. Run in either order, each moves its
handler to the same next stage, with the same reply once it returns (a
lookup's table included), and the registry ends with the same entries for
every handle (`Stage.step_comm`). Only the order of the keys inside
`es_map_` can differ, which no handler observes.

The proof is the usual one from a frame lemma and a congruence lemma. A
section on `h` leaves every other handle's entries alone
(`Stage.step_slot_ne`), and its outcome depends only on the entries of `h`
(`Stage.step_congr`, from the congruence lemmas of `Theory.Isolation`). So
each section sees the same entries of its own handle in both orders.

## Theorems

* `Stage.step_slot_ne`: A section leaves other handles alone.
* `Stage.step_congr`, `Stage.step_of_slot_eq`: A section reads only its own
  handle's entries.
* `Stage.step_comm`: Sections on different sessions commute.
-/

namespace Carls

section Commute

variable {K G σ ω V : Type} {b : Backend K G σ ω V}

theorem Stage.step_slot_ne {reg reg' : Registry σ ω} {s s' : Stage V} {h h' : String}
    (hs : s.step b reg = some (s', reg')) (hh : s.handle = some h) (hne : h' ≠ h) :
    reg'.slot h' = reg.slot h' := by
  obtain ⟨rfl, -⟩ | ⟨h₀, e, rfl | hw⟩ := Stage.step_registry hs
  · cases hh
  all_goals rw [hh, Option.some.injEq] at e; subst e
  · exact (addsOnly_startSessionIfNecessary b reg h).slot_ne hne
  · exact hw.slot_ne hne

/-- From two registries with the same entries for its handle, a section moves
    its handler to the same stage and leaves the same entries there. -/
theorem Stage.step_congr {reg₁ reg₂ : Registry σ ω} {s : Stage V} {h : String}
    (hh : s.handle = some h) (hs : reg₁.slot h = reg₂.slot h) :
    (s.step b reg₁).map (fun p => (p.1, p.2.slot h)) =
      (s.step b reg₂).map (fun p => (p.1, p.2.slot h)) := by
  cases s with
  | startSession _ | startLookup _ | startUpdate _ =>
    cases hh
    obtain ⟨hst, hsl⟩ := startSessionIfNecessary_congr b hs
    simp only [Stage.step, Option.map_some', hst, hsl]
  | lookup r =>
    cases hh
    have := congrArg (Option.map fun v => ((Stage.done v.1 (.lookup v.2.1) : Stage V), v.2.2))
      (lookupSection_congr b hs)
    simpa [Stage.step, Option.map_map, Function.comp_def, Reply.view] using this
  | values r =>
    cases hh
    have := congrArg (Option.map fun v => ((Stage.gradients r : Stage V), v))
      (writeValues_congr b hs)
    simpa [Stage.step, Option.map_map, Function.comp_def] using this
  | gradients r =>
    cases hh
    have := congrArg (Option.map fun v => ((Stage.done v.1 .update : Stage V), v.2.2))
      (writeGradients_congr b hs)
    simpa [Stage.step, Option.map_map, Function.comp_def, Reply.view] using this
  | knowledgeBankSize | done _ _ => cases hh

/-- A section that moves its handler to `s'` from one registry does so from
    every registry with the same entries for its handle, and leaves the same
    entries there. -/
theorem Stage.step_of_slot_eq {reg₁ reg₂ reg₁' : Registry σ ω} {s s' : Stage V} {h : String}
    (hh : s.handle = some h) (hs : reg₂.slot h = reg₁.slot h)
    (h₁ : s.step b reg₁ = some (s', reg₁')) :
    ∃ reg₂', s.step b reg₂ = some (s', reg₂') ∧ reg₂'.slot h = reg₁'.slot h := by
  have e : (s.step b reg₂).map (fun p => (p.1, p.2.slot h)) =
      (s.step b reg₁).map (fun p => (p.1, p.2.slot h)) := Stage.step_congr hh hs
  rw [h₁, Option.map_some'] at e
  obtain ⟨⟨s₂, reg₂'⟩, h₂, e⟩ := Option.map_eq_some'.mp e
  obtain ⟨rfl, e⟩ := Prod.mk.inj e
  exact ⟨reg₂', h₂, e⟩

/-- Two sections on different sessions commute: run in the other order, each
    moves its handler to the same stage, with the same reply if it returns,
    and the registry ends with the same entries for every handle. -/
theorem Stage.step_comm {reg reg₁ reg₂ : Registry σ ω} {s s' t t' : Stage V} {h₁ h₂ : String}
    (hs : s.handle = some h₁) (ht : t.handle = some h₂) (hne : h₁ ≠ h₂)
    (hs₁ : s.step b reg = some (s', reg₁)) (ht₂ : t.step b reg₁ = some (t', reg₂)) :
    ∃ reg₁' reg₂', t.step b reg = some (t', reg₁') ∧ s.step b reg₁' = some (s', reg₂') ∧
      ∀ h, reg₂'.slot h = reg₂.slot h := by
  -- `t` finds the entries of `h₂` that `s` did not touch, and then `s` those of `h₁`.
  obtain ⟨reg₁', ht₁, e₂⟩ :=
    Stage.step_of_slot_eq ht (Stage.step_slot_ne hs₁ hs (Ne.symm hne)).symm ht₂
  obtain ⟨reg₂', hs₂, e₁⟩ := Stage.step_of_slot_eq hs (Stage.step_slot_ne ht₁ ht hne) hs₁
  refine ⟨reg₁', reg₂', ht₁, hs₂, fun h => ?_⟩
  by_cases h₁h : h = h₁
  · subst h₁h
    rw [e₁, Stage.step_slot_ne ht₂ ht hne]
  by_cases h₂h : h = h₂
  · subst h₂h
    rw [Stage.step_slot_ne hs₂ hs h₁h, e₂]
  · calc reg₂'.slot h = reg.slot h := by
          rw [Stage.step_slot_ne hs₂ hs h₁h, Stage.step_slot_ne ht₁ ht h₂h]
      _ = reg₂.slot h := by
          rw [Stage.step_slot_ne ht₂ ht h₂h, Stage.step_slot_ne hs₁ hs h₁h]

end Commute

/-- The starts of two lookups on sessions `a` and `b` of a fresh service. -/
theorem step_comm_startLookup :
    (Stage.startLookup ⟨"a", ["k"], false⟩ : Stage Int).handle = some "a" ∧
    (Stage.startLookup ⟨"b", ["k"], false⟩ : Stage Int).handle = some "b" ∧ "a" ≠ "b" ∧
    (Stage.startLookup ⟨"a", ["k"], false⟩).step okBackend Registry.empty =
      some (.lookup ⟨"a", ["k"], false⟩, (startSessionIfNecessary okBackend Registry.empty "a").2) ∧
    (Stage.startLookup ⟨"b", ["k"], false⟩).step okBackend
        (startSessionIfNecessary okBackend Registry.empty "a").2 =
      some (.lookup ⟨"b", ["k"], false⟩, (startSessionIfNecessary okBackend
        (startSessionIfNecessary okBackend Registry.empty "a").2 "b").2) ∧
    ∃ reg₁' reg₂', (Stage.startLookup ⟨"b", ["k"], false⟩).step okBackend Registry.empty =
        some (.lookup ⟨"b", ["k"], false⟩, reg₁') ∧
      (Stage.startLookup ⟨"a", ["k"], false⟩).step okBackend reg₁' =
        some (.lookup ⟨"a", ["k"], false⟩, reg₂') ∧
      ∀ h, reg₂'.slot h = (startSessionIfNecessary okBackend
        (startSessionIfNecessary okBackend Registry.empty "a").2 "b").2.slot h :=
  have hs₁ : (Stage.startLookup ⟨"a", ["k"], false⟩).step okBackend Registry.empty =
      some (.lookup ⟨"a", ["k"], false⟩, (startSessionIfNecessary okBackend Registry.empty
        "a").2) := rfl
  have ht₂ : (Stage.startLookup ⟨"b", ["k"], false⟩).step okBackend
      (startSessionIfNecessary okBackend Registry.empty "a").2 =
      some (.lookup ⟨"b", ["k"], false⟩, (startSessionIfNecessary okBackend
        (startSessionIfNecessary okBackend Registry.empty "a").2 "b").2) := rfl
  ⟨rfl, rfl, by decide, hs₁, ht₂, Stage.step_comm rfl rfl (by decide) hs₁ ht₂⟩

end Carls
