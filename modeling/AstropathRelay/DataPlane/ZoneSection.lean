import AstropathRelay.DataPlane.WriteSurface

/-! Where the owner that is written lies with respect to the name in the ZONE section. -/

namespace AstropathRelay.DataPlane

open Lib Dns Providers

def Within (name zone : Name) : Prop := zone.canonicalize.labels <:+ name.canonicalize.labels

instance (name zone : Name) : Decidable (Within name zone) := inferInstanceAs (Decidable (_ <:+ _))

section Names

lemma within_congr {m m' n n' : Name} (hm : m == m') (hn : n == n') : Within m n ↔
    Within m' n' := by
  rw [Within, Within, Name.beq_iff.mp hm, Name.beq_iff.mp hn]

lemma within_of_suffix {m n : Name} (h : n.labels <:+ m.labels) : Within m n := h.map _

end Names

variable {P : Type}

lemma match_longest {routing : RoutingTable P} {zone : Name} {r : Route P}
    (h : routing.match zone = some r) :
    ∃ k : Name, k.labels <:+ zone.labels ∧ routing.get? k = some r ∧
      ∀ k' : Name, k'.labels <:+ zone.labels → (routing.get? k').isSome →
        k'.labels <:+ k.labels := by
  obtain ⟨labels, hv⟩ := zone
  induction labels with
  | nil => exact ⟨_, List.suffix_rfl, h, fun k' hk' _ => hk'⟩
  | cons l ls ih =>
    rw [RoutingTable.match_eq] at h
    split at h
    · next r' hg =>
      obtain rfl := Option.some.inj h
      exact ⟨_, List.suffix_rfl, hg, fun k' hk' _ => hk'⟩
    · next hg =>
      obtain ⟨k, hk, hget, hlongest⟩ := ih (Name.tail_valid hv) h
      refine ⟨k, hk.trans (List.suffix_cons l ls), hget, fun k' hk' hsome => ?_⟩
      rcases List.suffix_cons_iff.mp hk' with heq | hk'
      · obtain ⟨labels', hv'⟩ := k'
        obtain rfl : labels' = l :: ls := heq
        rw [hg] at hsome
        exact absurd hsome (by simp)
      · exact hlongest k' hk' hsome

lemma zone_of_get? {routes : List (Route P)} {k : Name} {r : Route P}
    (h : (RoutingTable.ofRoutes routes).get? k = some r) : r ∈ routes ∧ r.zone == k := by
  obtain ⟨k', hm, hk⟩ := Dict.get?_ofList_mem h
  obtain ⟨r', hr', he⟩ := List.mem_map.mp hm
  obtain ⟨rfl, rfl⟩ := Prod.mk.inj he
  exact ⟨hr', hk⟩

lemma get?_isSome_of_mem {routes : List (Route P)} {k : Name} {r : Route P} (hr : r ∈ routes)
    (hk : r.zone == k) : ((RoutingTable.ofRoutes routes).get? k).isSome := by
  by_contra hn
  rw [Option.not_isSome_iff_eq_none, RoutingTable.ofRoutes, Dict.get?_ofList_none] at hn
  have hf := hn (r.zone, r) (List.mem_map_of_mem hr)
  simp only at hf
  rw [hk] at hf
  exact absurd hf (by simp)

lemma match_within {routes : List (Route P)} {zone : Name} {r : Route P}
    (h : (RoutingTable.ofRoutes routes).match zone.canonicalize = some r) : r ∈ routes ∧
    Within zone r.zone ∧ ∀ r' ∈ routes, Within zone r'.zone → Within r.zone r'.zone := by
  obtain ⟨k, hk, hget, hlongest⟩ := match_longest h
  obtain ⟨hr, hzone⟩ := zone_of_get? hget
  refine ⟨hr, ?_, fun r' hr' hw => ?_⟩
  · rw [within_congr (BEq.symm (Name.canonicalize_beq zone)) hzone]
    exact within_of_suffix hk
  · have hbeq : r'.zone == r'.zone.canonicalize := by
      rw [BEq.comm]
      exact Name.canonicalize_beq r'.zone
    have hsuffix := hlongest r'.zone.canonicalize hw (get?_isSome_of_mem hr' hbeq)
    rw [within_congr hzone hbeq]
    exact within_of_suffix hsuffix

variable (typeOf : P → ProviderType)

/-- A provider is called for the record name of the longest configured zone that holds the name in
the ZONE section, so what is written lies within that name exactly when the record name does. -/
theorem call_within_iff (routes : List (Route P)) {resolver : Option (Name → Option ℕ)} {w : World}
    {source : String} {msg : Message} {c : ProviderCall P}
    (h : c ∈ calls (dispatch typeOf (RoutingTable.ofRoutes routes) resolver w source msg)) :
    ∃ zone rrset, ∃ route ∈ routes, msg.zone.head? = some zone ∧ msg.update = [rrset] ∧
      c.recordName = rrset.name.toText ∧ Within zone.name route.zone ∧
      (∀ r ∈ routes, Within zone.name r.zone → Within route.zone r.zone) ∧
      rrset.name == route.recordName ∧
      (Within rrset.name zone.name ↔ Within route.recordName zone.name) ∧
      (zone.name == route.zone → Within route.recordName route.zone →
        Within rrset.name zone.name) := by
  obtain ⟨route, rrset, hc, rfl⟩ := checked_of_call h
  obtain ⟨zone, hz, hmatch⟩ := hc.zone
  obtain ⟨hroute, hzone, hlongest⟩ := match_within hmatch
  refine ⟨zone, rrset, route, hroute, hz, hc.single, rfl, hzone, hlongest, hc.owner,
    within_congr hc.owner BEq.rfl, fun he hr => ?_⟩
  exact (within_congr hc.owner he).mpr hr

section Sample

def exampleZone : Name := ⟨["example", "com"].map Name.octetsOf, by decide +kernel⟩

def subZone : Name :=
  ⟨[Name.octetsOf "sub", Name.octetsOf "example", Name.octetsOf "com"], by decide +kernel⟩

def exampleRecord : Name :=
  ⟨[Name.octetsOf "_acme-challenge", Name.octetsOf "example", Name.octetsOf "com"],
    by decide +kernel⟩

def exampleRoutes : List (Route Unit) := [⟨exampleZone, (), exampleRecord⟩]

def updateIn (zone : Name) : Message where
  id := 0
  flags := 0x2800
  question := [⟨zone, RdClass.internet, RdType.soa, none, []⟩]
  authority := [⟨exampleRecord, RdClass.internet, RdType.txt, none, [.txt [[120]]]⟩]

def exampleCall : ProviderCall Unit :=
  ⟨(), .present, "example.com.", "_acme-challenge.example.com.", ["x"]⟩

theorem ownZone_call_within : Within exampleRecord exampleZone := by
  have hc : exampleCall ∈ calls (dispatch (fun _ => ProviderType.hurricane)
      (RoutingTable.ofRoutes exampleRoutes) none ⟨.ok, 0, 0, none⟩ "" (updateIn exampleZone)) := by
    decide +kernel
  obtain ⟨zone, rrset, route, hroute, hz, hu, -, -, -, -, -, hw⟩ :=
    call_within_iff _ exampleRoutes hc
  obtain rfl : route = ⟨exampleZone, (), exampleRecord⟩ := by simpa [exampleRoutes] using hroute
  simp only [Message.zone, Message.update, updateIn, List.head?_cons, Option.some.injEq,
    List.cons.injEq, and_true] at hz hu
  subst hz hu
  exact hw BEq.rfl (by decide +kernel)

theorem subZone_call_outside : exampleCall ∈ calls (dispatch (fun _ => ProviderType.hurricane)
      (RoutingTable.ofRoutes exampleRoutes) none ⟨.ok, 0, 0, none⟩ "" (updateIn subZone)) ∧
    ¬ Within exampleRecord subZone := by
  constructor <;> decide +kernel

end Sample

end AstropathRelay.DataPlane
