import Mathlib.Data.List.Forall2
import SaasFoundation.Lib.Text

/-!
# Lower-casing

A text is lower-cased character by character. The image of a character may
depend on what stands around it (the final sigma does), so a table gives
the possible images. What Unicode promises of them is in `CaseTable`: ASCII
stays within ASCII, an image is lower-case, and a symbol of ASCII is the
image of nothing but itself.
-/

namespace SaasFoundation.Lib

/-- The letters of ASCII. -/
abbrev IsLetter (c : Char) : Prop :=
  65 ≤ c.toNat ∧ c.toNat ≤ 90 ∨ 97 ≤ c.toNat ∧ c.toNat ≤ 122

structure CaseTable where
  images : Char → List (List Char)
  ascii : ∀ c, c.toNat < 128 → images c = [[c.toLower]]
  fixed : ∀ c img d, img ∈ images c → d ∈ img → images d = [[d]]
  symbols : ∀ c img d, img ∈ images c → d ∈ img → d.toNat < 128 → ¬ IsLetter d → c = d

namespace CaseTable

variable {T : CaseTable} {f : List Char → List Char} {s t : List Char}

/-- The function lower-cases by the table. -/
def Lowers (T : CaseTable) (f : List Char → List Char) : Prop :=
  ∀ s, ∃ imgs, List.Forall₂ (fun c img => img ∈ T.images c) s imgs ∧ f s = imgs.flatten

theorem mem_flatten_image {imgs : List (List Char)}
    (h : List.Forall₂ (fun c img => img ∈ T.images c) s imgs) {d : Char} (hd : d ∈ imgs.flatten) :
    ∃ c ∈ s, ∃ img ∈ T.images c, d ∈ img := by
  induction h with
  | nil => simp at hd
  | @cons c img s imgs himg _ ih =>
      rw [List.flatten_cons, List.mem_append] at hd
      rcases hd with hd | hd
      · exact ⟨c, List.mem_cons_self, img, himg, hd⟩
      · obtain ⟨c', hc', hrest⟩ := ih hd
        exact ⟨c', List.mem_cons_of_mem _ hc', hrest⟩

theorem Lowers.image (h : T.Lowers f) {d : Char} (hd : d ∈ f s) :
    ∃ c ∈ s, ∃ img ∈ T.images c, d ∈ img := by
  obtain ⟨imgs, himgs, hf⟩ := h s
  rw [hf] at hd
  exact mem_flatten_image himgs hd

/-- What has been lower-cased is lower-case. -/
theorem Lowers.fixed (h : T.Lowers f) {d : Char} (hd : d ∈ f s) : T.images d = [[d]] := by
  obtain ⟨c, -, img, himg, hmem⟩ := h.image hd
  exact T.fixed c img d himg hmem

theorem Lowers.symbol_mem (h : T.Lowers f) {d : Char} (hd : d ∈ f s) (hascii : d.toNat < 128)
    (hsymbol : ¬ IsLetter d) : d ∈ s := by
  obtain ⟨c, hc, img, himg, hmem⟩ := h.image hd
  rwa [← T.symbols c img d himg hmem hascii hsymbol]

/-- ASCII is lower-cased in its place. -/
theorem Lowers.ascii_mem (h : T.Lowers f) {c : Char} (hc : c ∈ s) (hascii : c.toNat < 128) :
    c.toLower ∈ f s := by
  obtain ⟨imgs, himgs, hf⟩ := h s
  rw [hf]
  clear hf
  induction himgs with
  | nil => cases hc
  | @cons d img s imgs himg _ ih =>
      rw [List.flatten_cons, List.mem_append]
      rcases List.mem_cons.mp hc with rfl | hc
      · rw [T.ascii _ hascii, List.mem_singleton] at himg
        exact .inl (by simp [himg])
      · exact .inr (ih hc)

/-- Where every character has one image of one character, the text is
mapped. -/
theorem Lowers.eq_map (h : T.Lowers f) {g : Char → Char} (hs : ∀ c ∈ s, T.images c = [[g c]]) :
    f s = s.map g := by
  obtain ⟨imgs, himgs, hf⟩ := h s
  rw [hf]
  clear hf
  induction himgs with
  | nil => rfl
  | @cons c img s imgs himg _ ih =>
      rw [hs c List.mem_cons_self, List.mem_singleton] at himg
      rw [himg, List.flatten_cons, List.map_cons, ih fun d hd => hs d (List.mem_cons_of_mem _ hd)]
      rfl

/-- A text of lower-cased characters stays as it is. -/
theorem Lowers.eq_self (h : T.Lowers f) (ht : ∀ d ∈ t, d ∈ f s) : f t = t := by
  have := h.eq_map (g := id) fun d hd => h.fixed (ht d hd)
  rwa [List.map_id] at this

theorem Lowers.nil (h : T.Lowers f) : f [] = [] := by
  have := h.eq_map (s := []) (g := id) (by simp)
  rwa [List.map_id] at this

/-! ## ASCII -/

theorem toLower_symbol {c : Char} (h : ¬ IsLetter c.toLower) : c.toLower = c := by
  rcases Text.toLower_cases c with ⟨hlo, hhi, hcode⟩ | ⟨-, hsame⟩
  · exact absurd (.inr (by omega)) h
  · exact hsame

theorem toLower_toLower (c : Char) : c.toLower.toLower = c.toLower := by
  rcases Text.toLower_cases c with ⟨hlo, hhi, hcode⟩ | ⟨-, hsame⟩
  · rcases Text.toLower_cases c.toLower with ⟨-, hhi', -⟩ | ⟨-, hsame⟩
    · omega
    · exact hsame
  · rw [hsame, hsame]

/-- Outside ASCII nothing changes. -/
theorem toLower_of_not_ascii {c : Char} (h : ¬ c.toNat < 128) : c.toLower = c := by
  rcases Text.toLower_cases c with ⟨-, hhi, -⟩ | ⟨-, hsame⟩
  · omega
  · exact hsame

/-- The table that knows the letters of ASCII only. -/
def asciiTable : CaseTable where
  images := fun c => [[c.toLower]]
  ascii := fun _ _ => rfl
  fixed := by
    intro c img d himg hd
    rw [List.mem_singleton.mp himg, List.mem_singleton] at hd
    rw [hd, toLower_toLower]
  symbols := by
    intro c img d himg hd _ hsymbol
    rw [List.mem_singleton.mp himg, List.mem_singleton] at hd
    rw [hd] at hsymbol ⊢
    exact (toLower_symbol hsymbol).symm

theorem asciiTable_lowers : asciiTable.Lowers (List.map Char.toLower) := by
  intro s
  refine ⟨s.map fun c => [c.toLower], ?_, ?_⟩
  · rw [List.forall₂_map_right_iff, List.forall₂_same]
    intro c _
    exact List.mem_cons_self
  · induction s with
    | nil => rfl
    | cons c s ih =>
        rw [List.map_cons, List.map_cons, List.flatten_cons, ← ih]
        rfl

end CaseTable

end SaasFoundation.Lib
