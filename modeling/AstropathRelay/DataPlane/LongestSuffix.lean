import AstropathRelay.DataPlane.ZoneSection

/-! Routing by the longest suffix, as an optimum over the configured zones. -/

namespace AstropathRelay.DataPlane

open Lib Dns

variable {P : Type}

structure Longest (routes : List (Route P)) (name : Name) (r : Route P) : Prop where
  within : Within name r.zone
  longest : ∀ r' ∈ routes, Within name r'.zone → r'.zone.labels.length ≤ r.zone.labels.length
  last : ∃ pre post, routes = pre ++ r :: post ∧ ∀ r' ∈ post, (r'.zone == r.zone) = false

section Names

lemma length_canonicalize (n : Name) : n.canonicalize.labels.length = n.labels.length := by
  simp [Name.canonicalize, Name.lowerLabels]

lemma beq_cons {l l' : Label} {ls ls' : List Label} {h : ValidLabels (l :: ls)}
    {h' : ValidLabels (l' :: ls')} (he : (⟨l :: ls, h⟩ : Name) == ⟨l' :: ls', h'⟩) :
    (⟨ls, Name.tail_valid h⟩ : Name) == ⟨ls', Name.tail_valid h'⟩ := by
  rw [Name.beq_iff] at he ⊢
  simp only [Name.canonicalize, Name.lowerLabels, Name.mk.injEq, List.map_cons, List.cons.injEq]
    at he ⊢
  exact he.2

lemma Within.length_le {name zone : Name} (h : Within name zone) :
    zone.labels.length ≤ name.labels.length := by
  have hl := List.IsSuffix.length_le h
  rwa [length_canonicalize, length_canonicalize] at hl

lemma Within.beq_of_length {name zone zone' : Name} (h : Within name zone) (h' : Within name zone')
    (hl : zone.labels.length = zone'.labels.length) : zone == zone' := by
  rw [Name.beq_iff]
  have hs : zone.canonicalize.labels <:+ zone'.canonicalize.labels :=
    List.suffix_of_suffix_length_le h h' (by rw [length_canonicalize, length_canonicalize, hl])
  have he := hs.eq_of_length (by rw [length_canonicalize, length_canonicalize, hl])
  cases hz : zone.canonicalize
  cases hz' : zone'.canonicalize
  rw [hz, hz'] at he
  simpa using he

end Names

namespace RoutingTable

lemma match_congr (t : RoutingTable P) {name name' : Name} (h : name == name') :
    t.match name = t.match name' := by
  obtain ⟨labels, hv⟩ := name
  obtain ⟨labels', hv'⟩ := name'
  induction labels generalizing labels' with
  | nil =>
    cases labels' with
    | nil => rfl
    | cons l' ls' => exact absurd h (by simp [Name.beq_iff, Name.canonicalize, Name.lowerLabels])
  | cons l ls ih =>
    cases labels' with
    | nil => exact absurd h (by simp [Name.beq_iff, Name.canonicalize, Name.lowerLabels])
    | cons l' ls' =>
      rw [match_eq, match_eq, Dict.get?_congr t h]
      cases t.get? (⟨l' :: ls', hv'⟩ : Name) with
      | some r => rfl
      | none => exact ih (Name.tail_valid hv) ls' (Name.tail_valid hv') (beq_cons h)

lemma get?_of_match_none {t : RoutingTable P} {name : Name} (h : t.match name = none) {k : Name}
    (hk : k.labels <:+ name.labels) : t.get? k = none := by
  obtain ⟨labels, hv⟩ := name
  induction labels with
  | nil =>
    obtain ⟨labels', hv'⟩ := k
    obtain rfl : labels' = [] := List.suffix_nil.mp hk
    exact h
  | cons l ls ih =>
    rw [match_eq] at h
    split at h
    · exact absurd h (by simp)
    · next hg =>
      rcases List.suffix_cons_iff.mp hk with heq | hk
      · obtain ⟨labels', hv'⟩ := k
        obtain rfl : labels' = l :: ls := heq
        exact hg
      · exact ih (Name.tail_valid hv) h hk

end RoutingTable

open RoutingTable

lemma exists_last {routes : List (Route P)} {k : Name} {r : Route P}
    (h : (ofRoutes routes).get? k = some r) : r.zone == k ∧ ∃ pre post, routes = pre ++ r :: post ∧
    ∀ r' ∈ post, (r'.zone == r.zone) = false := by
  obtain ⟨pre, k', post, he, hk, hpost⟩ := Dict.exists_last_of_get? h
  obtain ⟨pre', tail, rfl, rfl, htail⟩ := List.map_eq_append_iff.mp he
  obtain ⟨r', post', rfl, hr', rfl⟩ := List.map_eq_cons_iff.mp htail
  obtain ⟨rfl, rfl⟩ := Prod.mk.inj hr'
  exact ⟨hk, pre', post', rfl, fun s hs => hpost (s.zone, s) (List.mem_map_of_mem hs)⟩

lemma get?_of_last {routes : List (Route P)} {r : Route P}
    (h : ∃ pre post, routes = pre ++ r :: post ∧ ∀ r' ∈ post, (r'.zone == r.zone) = false) :
    (ofRoutes routes).get? r.zone = some r := by
  obtain ⟨pre, post, rfl, hpost⟩ := h
  rw [ofRoutes, List.map_append, List.map_cons]
  apply Dict.get?_ofList_last
  intro e he
  obtain ⟨r', hr', rfl⟩ := List.mem_map.mp he
  exact hpost r' hr'

lemma longest_of_match {routes : List (Route P)} {name : Name} {r : Route P}
    (h : (ofRoutes routes).match name = some r) : Longest routes name r := by
  rw [← match_congr _ (Name.canonicalize_beq name)] at h
  obtain ⟨k, hk, hget, -⟩ := match_longest h
  obtain ⟨-, hwithin, hlongest⟩ := match_within h
  exact ⟨hwithin, fun r' hr' hw => (hlongest r' hr' hw).length_le, (exists_last hget).2⟩

lemma not_within_of_match_none {routes : List (Route P)} {name : Name}
    (h : (ofRoutes routes).match name = none)
    (r : Route P) (hr : r ∈ routes) : ¬ Within name r.zone := by
  intro hw
  rw [← match_congr _ (Name.canonicalize_beq name)] at h
  have hsome := get?_isSome_of_mem hr (BEq.symm (Name.canonicalize_beq r.zone))
  rw [get?_of_match_none h hw] at hsome
  exact absurd hsome (by simp)

lemma Longest.unique {routes : List (Route P)} {name : Name} {r r' : Route P}
    (h : Longest routes name r) (h' : Longest routes name r') : r = r' := by
  have hmem : ∀ {s : Route P}, Longest routes name s → s ∈ routes := by
    intro s hs
    obtain ⟨pre, post, rfl, -⟩ := hs.last
    simp
  have hl : r.zone.labels.length = r'.zone.labels.length :=
    le_antisymm (h'.longest r (hmem h) h.within) (h.longest r' (hmem h') h'.within)
  have hz := h.within.beq_of_length h'.within hl
  have hget := get?_of_last h.last
  rw [Dict.get?_congr _ hz, get?_of_last h'.last] at hget
  exact (Option.some.inj hget).symm

/-- The walk over the parents finds the route with the most labels among the configured zones that
hold the name, and nothing exactly when no configured zone holds it. -/
theorem match_iff_longest (routes : List (Route P)) (name : Name) :
    (∀ r, (ofRoutes routes).match name = some r ↔ Longest routes name r) ∧
    ((ofRoutes routes).match name = none ↔ ∀ r ∈ routes, ¬ Within name r.zone) ∧
    ∀ name', name' == name → (ofRoutes routes).match name' = (ofRoutes routes).match name := by
  refine ⟨fun r => ⟨longest_of_match, fun h => ?_⟩, ⟨not_within_of_match_none, fun h => ?_⟩,
    fun _ => match_congr _⟩
  · cases hm : (ofRoutes routes).match name with
    | none =>
      obtain ⟨pre, post, rfl, -⟩ := h.last
      exact absurd h.within (not_within_of_match_none hm r (by simp))
    | some r' => rw [h.unique (longest_of_match hm)]
  · cases hm : (ofRoutes routes).match name with
    | none => rfl
    | some r =>
      have hl := longest_of_match hm
      obtain ⟨pre, post, rfl, -⟩ := hl.last
      exact absurd hl.within (h r (by simp))

end AstropathRelay.DataPlane
