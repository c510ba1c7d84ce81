import Mathlib.Data.List.Basic
import Mathlib.Data.List.Nodup

/-!
# Objects of the runtime

An ordinary object as its own properties, in the order in which they were
made. Literals, computed names and spreads define properties. An assignment
does so as well, but for one name: `__proto__` is an accessor of the
prototype, and assigning to it makes no property unless there is one.
-/

namespace SaasFoundation.Lib

variable {α : Type}

/-- Set in place, or put at the end. -/
def setProperty (name : String) (v : α) : List (String × α) → List (String × α)
  | [] => [(name, v)]
  | q :: qs => if q.1 = name then (name, v) :: qs else q :: setProperty name v qs

section List

variable {name other : String} {v : α} {qs : List (String × α)}

theorem setProperty_new (h : name ∉ qs.map Prod.fst) : setProperty name v qs = qs ++ [(name, v)] := by
  induction qs with
  | nil => rfl
  | cons q qs ih =>
      simp only [List.map_cons, List.mem_cons, not_or] at h
      rw [setProperty, if_neg (Ne.symm h.1), ih h.2, List.cons_append]

theorem setProperty_names (h : name ∈ qs.map Prod.fst) :
    (setProperty name v qs).map Prod.fst = qs.map Prod.fst := by
  induction qs with
  | nil => simp at h
  | cons q qs ih =>
      by_cases hq : q.1 = name
      · simp [setProperty, hq]
      · rw [List.map_cons, List.mem_cons] at h
        rw [setProperty, if_neg hq, List.map_cons, List.map_cons,
          ih (h.resolve_left fun he => hq he.symm)]

theorem setProperty_nodup (h : (qs.map Prod.fst).Nodup) :
    ((setProperty name v qs).map Prod.fst).Nodup := by
  by_cases hname : name ∈ qs.map Prod.fst
  · rwa [setProperty_names hname]
  · rw [setProperty_new hname, List.map_append, List.nodup_append]
    refine ⟨h, List.nodup_singleton _, fun a ha b hb hab => hname ?_⟩
    have hb' : b = name := List.mem_singleton.mp hb
    rwa [← hb', ← hab]

theorem lookup_setProperty : (setProperty name v qs).lookup name = some v := by
  induction qs with
  | nil => simp [setProperty]
  | cons q qs ih =>
      by_cases hq : q.1 = name
      · simp [setProperty, hq]
      · rw [setProperty, if_neg hq, List.lookup_cons, beq_eq_false_iff_ne.mpr (Ne.symm hq), ih]

theorem lookup_setProperty_of_ne (h : other ≠ name) :
    (setProperty name v qs).lookup other = qs.lookup other := by
  induction qs with
  | nil => simp [setProperty, List.lookup_cons, beq_eq_false_iff_ne.mpr h]
  | cons q qs ih =>
      by_cases hq : q.1 = name
      · rw [setProperty, if_pos hq, List.lookup_cons, List.lookup_cons, hq,
          beq_eq_false_iff_ne.mpr h]
      · rw [setProperty, if_neg hq, List.lookup_cons, List.lookup_cons, ih]

theorem mem_setProperty {q : String × α} (h : q ∈ setProperty name v qs) :
    q = (name, v) ∨ q ∈ qs := by
  induction qs with
  | nil => exact .inl (List.mem_singleton.mp h)
  | cons p qs ih =>
      by_cases hp : p.1 = name
      · rw [setProperty, if_pos hp] at h
        rcases List.mem_cons.mp h with rfl | h
        · exact .inl rfl
        · exact .inr (List.mem_cons_of_mem _ h)
      · rw [setProperty, if_neg hp] at h
        rcases List.mem_cons.mp h with rfl | h
        · exact .inr List.mem_cons_self
        · exact (ih h).imp_right (List.mem_cons_of_mem _)

/-- A property that is set takes the place of one of its name. -/
theorem setProperty_perm (h : (qs.map Prod.fst).Nodup) :
    (setProperty name v qs).Perm ((name, v) :: qs.filter fun q => q.1 ≠ name) := by
  induction qs with
  | nil => exact .refl _
  | cons q qs ih =>
      rw [List.map_cons, List.nodup_cons] at h
      by_cases hq : q.1 = name
      · have hothers : qs.filter (fun q => q.1 ≠ name) = qs := by
          rw [List.filter_eq_self]
          intro r hr
          have hne : r.1 ≠ name := by
            rintro rfl
            exact h.1 (hq ▸ List.mem_map_of_mem hr)
          simpa using hne
        rw [setProperty, if_pos hq, List.filter_cons_of_neg (by simpa using hq), hothers]
      · rw [setProperty, if_neg hq, List.filter_cons_of_pos (by simpa using hq)]
        exact ((ih h.2).cons q).trans (.swap _ _ _)

/-- A name that is filtered out may be set. -/
theorem filter_setProperty {keep : String → Bool} (h : keep name = false) :
    (setProperty name v qs).filter (fun q => keep q.1) = qs.filter fun q => keep q.1 := by
  induction qs with
  | nil => simp [setProperty, h]
  | cons q qs ih =>
      by_cases hq : q.1 = name
      · simp [setProperty, hq, h]
      · rw [setProperty, if_neg hq, List.filter_cons, List.filter_cons, ih]

theorem lookup_eq_none_iff : qs.lookup name = none ↔ name ∉ qs.map Prod.fst := by
  induction qs with
  | nil => simp
  | cons q qs ih =>
      rw [List.lookup_cons, List.map_cons, List.mem_cons, not_or]
      by_cases hq : name = q.1
      · simp [hq]
      · rw [beq_eq_false_iff_ne.mpr hq, ih]
        exact (and_iff_right hq).symm

theorem lookup_eq_some_iff_mem (h : (qs.map Prod.fst).Nodup) :
    qs.lookup name = some v ↔ (name, v) ∈ qs := by
  induction qs with
  | nil => simp
  | cons q qs ih =>
      rw [List.map_cons, List.nodup_cons] at h
      rw [List.lookup_cons, List.mem_cons]
      by_cases hq : name = q.1
      · have hother : (name, v) ∉ qs := fun hmem => h.1 (hq ▸ List.mem_map_of_mem hmem)
        subst hq
        simp [hother, Prod.ext_iff, eq_comm]
      · rw [beq_eq_false_iff_ne.mpr hq, ih h.2]
        simp [Prod.ext_iff, hq]

/-- New properties, set one after another, come behind the old ones. -/
theorem foldl_setProperty (qs o : List (String × α)) (h : ((o ++ qs).map Prod.fst).Nodup) :
    qs.foldl (fun o q => setProperty q.1 q.2 o) o = o ++ qs := by
  induction qs generalizing o with
  | nil => simp
  | cons q qs ih =>
      have hnew : q.1 ∉ o.map Prod.fst := by
        rw [List.map_append, List.nodup_append] at h
        exact fun hmem => h.2.2 q.1 hmem q.1 (by simp) rfl
      rw [List.foldl_cons, setProperty_new hnew, ih _ (by simpa using h)]
      simp

end List

/-- The own properties of an object; no name twice. -/
@[ext]
structure JsObject (α : Type) where
  properties : List (String × α)
  distinct : (properties.map Prod.fst).Nodup

namespace JsObject

def empty : JsObject α := ⟨[], List.nodup_nil⟩

/-- `Object.keys`. -/
def names (o : JsObject α) : List String := o.properties.map Prod.fst

/-- `o[name]`, of an own property. -/
def get (o : JsObject α) (name : String) : Option α := o.properties.lookup name

/-- A property of a literal, or one that is spread. -/
def define (o : JsObject α) (name : String) (v : α) : JsObject α :=
  ⟨setProperty name v o.properties, setProperty_nodup o.distinct⟩

def proto : String := "__proto__"

/-- `o[name] = v`. -/
def assign (o : JsObject α) (name : String) (v : α) : JsObject α :=
  if name = proto ∧ name ∉ o.names then o else o.define name v

/-- `{...o, ...from}`. -/
def spread (o other : JsObject α) : JsObject α :=
  other.properties.foldl (fun o q => o.define q.1 q.2) o

variable {o other : JsObject α} {name attr : String} {v : α} {keep : String → Bool}

theorem get_eq_none_iff : o.get name = none ↔ name ∉ o.names := lookup_eq_none_iff

theorem get_eq_some_iff : o.get name = some v ↔ (name, v) ∈ o.properties :=
  lookup_eq_some_iff_mem o.distinct

theorem get_define : (o.define name v).get name = some v := lookup_setProperty

theorem get_define_of_ne (h : attr ≠ name) : (o.define name v).get attr = o.get attr :=
  lookup_setProperty_of_ne h

theorem assign_of_ne (h : name ≠ proto) : o.assign name v = o.define name v :=
  if_neg fun hp => h hp.1

theorem get_assign (h : name ≠ proto) : (o.assign name v).get name = some v := by
  rw [assign_of_ne h, get_define]

/-- Where there was no such property, there is none. -/
theorem get_assign_proto (h : o.get proto = none) : (o.assign proto v).get proto = none := by
  rw [assign, if_pos ⟨rfl, get_eq_none_iff.mp h⟩, h]

theorem get_assign_of_ne (h : attr ≠ name) : (o.assign name v).get attr = o.get attr := by
  unfold assign
  split
  · rfl
  · exact get_define_of_ne h

theorem filter_define (h : keep name = false) :
    (o.define name v).properties.filter (fun q => keep q.1) =
      o.properties.filter fun q => keep q.1 :=
  filter_setProperty h

theorem filter_assign (h : keep name = false) :
    (o.assign name v).properties.filter (fun q => keep q.1) =
      o.properties.filter fun q => keep q.1 := by
  unfold assign
  split
  · rfl
  · exact filter_define h

theorem mem_names_define : attr ∈ (o.define name v).names ↔ attr = name ∨ attr ∈ o.names := by
  show attr ∈ (setProperty name v o.properties).map Prod.fst ↔
    attr = name ∨ attr ∈ o.properties.map Prod.fst
  by_cases h : name ∈ o.properties.map Prod.fst
  · rw [setProperty_names h]
    exact ⟨.inr, fun hattr => hattr.elim (fun he => he ▸ h) id⟩
  · rw [setProperty_new h]
    simp only [List.map_append, List.mem_append, List.map_cons, List.map_nil, List.mem_singleton]
    exact or_comm

theorem mem_names_assign (h : attr ∈ (o.assign name v).names) : attr = name ∨ attr ∈ o.names := by
  unfold assign at h
  split at h
  · exact .inr h
  · exact mem_names_define.mp h

theorem spread_properties (o other : JsObject α) : (o.spread other).properties =
    other.properties.foldl (fun o q => setProperty q.1 q.2 o) o.properties := by
  unfold spread
  generalize other.properties = qs
  induction qs generalizing o with
  | nil => rfl
  | cons q qs ih => exact ih _

/-- Spread into nothing, an object is copied. -/
theorem spread_empty : (empty : JsObject α).spread other = other := by
  apply JsObject.ext
  rw [spread_properties, foldl_setProperty _ _ (by simpa [empty] using other.distinct)]
  rfl

theorem get_spread : (o.spread other).get name = (other.get name).or (o.get name) := by
  have hget : ∀ (qs : List (String × α)) (o : JsObject α), (qs.map Prod.fst).Nodup →
      (qs.foldl (fun o q => o.define q.1 q.2) o).get name = (qs.lookup name).or (o.get name) := by
    intro qs
    induction qs with
    | nil => intro o _; rfl
    | cons q qs ih =>
        intro o hnodup
        rw [List.map_cons, List.nodup_cons] at hnodup
        rw [List.foldl_cons, ih _ hnodup.2, List.lookup_cons]
        by_cases hq : name = q.1
        · rw [hq, lookup_eq_none_iff.mpr hnodup.1, get_define, beq_self_eq_true]
          rfl
        · rw [get_define_of_ne hq, beq_eq_false_iff_ne.mpr hq]
  exact hget other.properties o other.distinct

theorem filter_spread (h : ∀ name ∈ other.names, keep name = false) :
    (o.spread other).properties.filter (fun q => keep q.1) =
      o.properties.filter fun q => keep q.1 := by
  have hfilter : ∀ (qs : List (String × α)) (o : JsObject α), (∀ q ∈ qs, keep q.1 = false) →
      (qs.foldl (fun o q => o.define q.1 q.2) o).properties.filter (fun q => keep q.1) =
        o.properties.filter fun q => keep q.1 := by
    intro qs
    induction qs with
    | nil => intro o _; rfl
    | cons q qs ih =>
        intro o hqs
        rw [List.foldl_cons, ih _ fun q' hq' => hqs q' (List.mem_cons_of_mem _ hq'),
          filter_define (hqs q List.mem_cons_self)]
  exact hfilter other.properties o fun q hq => h q.1 (List.mem_map_of_mem hq)

/-- What is left when the properties are assigned one after another. -/
theorem assignAll_properties (qs : List (String × α)) (hnodup : (qs.map Prod.fst).Nodup) :
    (qs.foldl (fun o q => o.assign q.1 q.2) (empty : JsObject α)).properties =
      qs.filter fun q => q.1 != proto := by
  have hall : ∀ (qs : List (String × α)) (o : JsObject α), proto ∉ o.names →
      ((o.properties ++ qs).map Prod.fst).Nodup →
      (qs.foldl (fun o q => o.assign q.1 q.2) o).properties =
        o.properties ++ qs.filter fun q => q.1 != proto := by
    intro qs
    induction qs with
    | nil => intro o _ _; simp
    | cons q qs ih =>
        intro o hproto hnodup
        rw [List.map_append, List.nodup_append, List.map_cons, List.nodup_cons] at hnodup
        obtain ⟨ho, ⟨hq, hqs⟩, hdisjoint⟩ := hnodup
        rw [List.foldl_cons]
        by_cases hname : q.1 = proto
        · -- no property is made
          have hskip : o.assign q.1 q.2 = o := if_pos ⟨hname, by rwa [hname]⟩
          rw [hskip, ih o hproto, List.filter_cons_of_neg (by simp [hname])]
          rw [List.map_append, List.nodup_append]
          exact ⟨ho, hqs, fun a ha b hb => hdisjoint a ha b (List.mem_cons_of_mem _ hb)⟩
        · have hnew : q.1 ∉ o.properties.map Prod.fst :=
            fun hmem => hdisjoint q.1 hmem q.1 List.mem_cons_self rfl
          have hassign : (o.assign q.1 q.2).properties = o.properties ++ [q] := by
            rw [assign_of_ne hname]
            exact setProperty_new hnew
          rw [ih, hassign, List.filter_cons_of_pos (by simp [hname]), List.append_assoc,
            List.singleton_append]
          · rw [assign_of_ne hname, mem_names_define, not_or]
            exact ⟨Ne.symm hname, hproto⟩
          · rw [hassign, List.append_assoc, List.singleton_append, List.map_append,
              List.nodup_append, List.map_cons, List.nodup_cons]
            exact ⟨ho, ⟨hq, hqs⟩, hdisjoint⟩
  simpa [empty] using hall qs empty (by simp [names, empty]) (by simpa [empty] using hnodup)

end JsObject

end SaasFoundation.Lib
