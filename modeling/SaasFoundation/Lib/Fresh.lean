import SaasFoundation.Lib.Threads

/-!
# Values that are drawn once

A random source that never repeats itself: a value that was drawn stays
drawn, and a draw returns a value that was not. In every run two draws of
one value are one and the same request.
-/

namespace SaasFoundation.Lib

variable {Op : Type} {Res : Op → Type} {World Job Out V : Type}

/-- `draws ev = some v` says that the event drew `v`; `drawn w` are the
values drawn so far. -/
structure FreshSource (S : System Op Res World Job Out) (draws : Event Op Res → Option V)
    (drawn : World → List V) : Prop where
  fresh : ∀ w op r w', S.serve w op r w' → ∀ v, draws ⟨op, r⟩ = some v →
    v ∉ drawn w ∧ v ∈ drawn w'
  serve_keeps : ∀ w op r w', S.serve w op r w' → ∀ v ∈ drawn w, v ∈ drawn w'
  drift_keeps : ∀ w w', S.drift w w' → ∀ v ∈ drawn w, v ∈ drawn w'

namespace FreshSource

variable {S : System Op Res World Job Out} {draws : Event Op Res → Option V}
  {drawn : World → List V} {c : Config Op Res World Job Out}

theorem mem_drawn (hF : FreshSource S draws drawn) (h : S.Reachable c) :
    ∀ e ∈ c.log, ∀ v, draws e.ev = some v → v ∈ drawn c.world := by
  induction h with
  | init _ => simp
  | step _ hs ih =>
      cases hs with
      | spawn _ => exact ih
      | @request i job op k r w hi hserve =>
          intro e he v hv
          rcases List.mem_append.mp he with he | he
          · exact hF.serve_keeps _ _ _ _ hserve v (ih e he v hv)
          · rw [List.mem_singleton.mp he] at hv
            exact (hF.fresh _ _ _ _ hserve v hv).2
      | drift hd =>
          intro e he v hv
          exact hF.drift_keeps _ _ hd v (ih e he v hv)

/-- A value is drawn by one request. -/
theorem draw_unique (hF : FreshSource S draws drawn) (h : S.Reachable c) :
    ∀ e₁ ∈ c.log, ∀ e₂ ∈ c.log, ∀ v, draws e₁.ev = some v → draws e₂.ev = some v →
      e₁ = e₂ := by
  induction h with
  | init _ => simp
  | @step c d hc hs ih =>
      cases hs with
      | spawn _ => exact ih
      | @request i job op k r w hi hserve =>
          intro e₁ he₁ e₂ he₂ v hv₁ hv₂
          -- the new request cannot have drawn what an earlier one drew
          have hnew : ∀ e ∈ c.log, draws e.ev = some v →
              draws (⟨op, r⟩ : Event Op Res) ≠ some v := by
            intro e he hv hlast
            exact (hF.fresh _ _ _ _ hserve v hlast).1 (hF.mem_drawn hc e he v hv)
          rcases List.mem_append.mp he₁ with he₁ | he₁ <;>
            rcases List.mem_append.mp he₂ with he₂ | he₂
          · exact ih e₁ he₁ e₂ he₂ v hv₁ hv₂
          · rw [List.mem_singleton.mp he₂] at hv₂
            exact absurd hv₂ (hnew e₁ he₁ hv₁)
          · rw [List.mem_singleton.mp he₁] at hv₁
            exact absurd hv₁ (hnew e₂ he₂ hv₂)
          · rw [List.mem_singleton.mp he₁, List.mem_singleton.mp he₂]
      | drift _ => exact ih

end FreshSource

end SaasFoundation.Lib
