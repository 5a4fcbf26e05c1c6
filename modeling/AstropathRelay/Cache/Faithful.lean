import AstropathRelay.Cache.Loads

/-! When a snapshot keeps every row apart from every other. -/

namespace AstropathRelay.Cache

open Lib Lib.Results Dns DataPlane Providers Store Api

variable {Key Token : Type} (E : Platform) (F : Fernet Key Token) (kek : Kek Key)

structure Faithful (t : Tables Token) (s : CacheSnapshot) : Prop where
  keyCount : s.runtime.keyring.entries.length = t.tsigKeys.length
  idCount : s.tsigKeyIds.entries.length = t.tsigKeys.length
  routeCount : s.runtime.routing.entries.length = t.domains.length
  key : ∀ k ∈ t.tsigKeys, ∃ e, rowKey E F kek k = .ok e ∧ s.runtime.keyring.get? e.1 = some e.2 ∧
    s.tsigKeyIds.get? e.1.canonicalize = some k.id
  route : ∀ d ∈ t.domains, ∃ r, RowRoute E t d r ∧ s.runtime.routing.match r.zone = some r

def Apart (x y : String) : Prop :=
  ∀ m n, Name.fromText E.fromUnicode x = .ok m → Name.fromText E.fromUnicode y = .ok n →
    (m == n) = false

structure NamesApart (t : Tables Token) : Prop where
  tsigKeys : t.tsigKeys.Pairwise (fun a b => Apart E a.name b.name)
  zones : t.domains.Pairwise (fun a b => Apart E a.zone b.zone)

variable {E F kek}

lemma Apart.symm {x y : String} (h : Apart E x y) : Apart E y x := by
  intro m n hm hn
  rw [BEq.comm]
  exact h n m hn hm

lemma distinct_iff {α β : Type} {text : α → String} {as : List α} {es : List (Name × β)}
    (h : List.Forall₂ (fun a e => ∃ n, Name.fromText E.fromUnicode (text a) = .ok n ∧
      n == e.1) as es) : Dict.Distinct es ↔ as.Pairwise (fun a b => Apart E (text a) (text b)) := by
  refine (pairwise_related ?_ h).symm
  rintro a e a' e' ⟨m, hm, hme⟩ ⟨n, hn, hne⟩
  have hbeq : (m == n) = (e.1 == e'.1) := (BEq.congr_left hme).trans (BEq.congr_right hne)
  constructor
  · intro hap
    rw [← hbeq]
    exact hap m n hm hn
  · intro he m' n' hm' hn'
    obtain rfl := Except.ok.inj (hm.symm.trans hm')
    obtain rfl := Except.ok.inj (hn.symm.trans hn')
    rw [hbeq]
    exact he

lemma perm_apart {α : Type} (text : α → String) {as bs : List α} (h : as.Perm bs) :
    as.Pairwise (fun a b => Apart E (text a) (text b)) ↔
      bs.Pairwise (fun a b => Apart E (text a) (text b)) :=
  h.pairwise_iff (fun hab => hab.symm)

section Built

variable {t : Tables Token} {rows : Selected Token} {s : CacheSnapshot}

lemma distinct_keys {ks : List (TsigKeyRow Token)} {keys : List (Name × Dns.Key)}
    (h : List.Forall₂ (fun k e => rowKey E F kek k = .ok e) ks keys) :
    Dict.Distinct keys ↔ ks.Pairwise (fun a b => Apart E a.name b.name) :=
  distinct_iff (h.imp (fun _ e he => ⟨e.1, rowKey_ok he, BEq.rfl⟩))

lemma distinct_ids {rows : List (ℕ × String)} {ids : List (Name × ℕ)}
    (h : List.Forall₂ (IdEntry E) rows ids) :
    Dict.Distinct ids ↔ rows.Pairwise (fun a b => Apart E a.2 b.2) := by
  refine distinct_iff (h.imp ?_)
  rintro row e ⟨n, hn, rfl⟩
  exact ⟨n, hn, by rw [BEq.comm]; exact Name.canonicalize_beq n⟩

lemma distinct_routes {ds : List (DomainRow Token)} {routes : List (Route ProviderRef)}
    (h : List.Forall₂ (RowRoute E t) ds routes) :
    Dict.Distinct (routes.map (fun r => (r.zone, r))) ↔
      ds.Pairwise (fun a b => Apart E a.zone b.zone) := by
  refine distinct_iff (List.forall₂_map_right_iff.mpr (h.imp ?_))
  rintro d r ⟨b, -, p, zone, recordName, -, -, hz, -, rfl⟩
  exact ⟨zone, hz, by rw [BEq.comm]; exact Name.canonicalize_beq zone⟩

lemma match_of_get? {P : Type} {routing : RoutingTable P} {zone : Name} {r : Route P}
    (h : routing.get? zone = some r) : routing.match zone = some r := by
  rw [RoutingTable.match_eq, h]

lemma faithful_iff (hsel : Selects t rows) (hb : Built E F kek t rows s) :
    Faithful E F kek t s ↔ NamesApart E t := by
  obtain ⟨⟨keys, hkeys, hkeyring⟩, ⟨ids, hids, hidmap⟩, routes, hroutes, hrouting⟩ := hb
  have hdk := (distinct_keys hkeys).trans (perm_apart TsigKeyRow.name hsel.tsigKeys)
  have hdi : Dict.Distinct ids ↔ t.tsigKeys.Pairwise (fun a b => Apart E a.name b.name) := by
    rw [distinct_ids hids, perm_apart Prod.snd hsel.tsigKeyIds, List.pairwise_map]
  have hdr := (distinct_routes hroutes).trans (perm_apart DomainRow.zone hsel.domains)
  constructor
  · intro h
    refine ⟨hdk.mp (Dict.length_ofList_eq.mp ?_), hdr.mp (Dict.length_ofList_eq.mp ?_)⟩
    · rw [hkeyring, h.keyCount, ← hkeys.length_eq, hsel.tsigKeys.length_eq]
    · change (RoutingTable.ofRoutes routes).entries.length = _
      rw [hrouting, h.routeCount, List.length_map, ← hroutes.length_eq, hsel.domains.length_eq]
  · intro h
    have hk := hdk.mpr h.tsigKeys
    have hi := hdi.mpr h.tsigKeys
    have hr := hdr.mpr h.zones
    refine ⟨?_, ?_, ?_, fun k hm => ?_, fun d hm => ?_⟩
    · rw [← hkeyring, Dict.length_ofList_eq.mpr hk, ← hkeys.length_eq, hsel.tsigKeys.length_eq]
    · rw [← hidmap, Dict.length_ofList_eq.mpr hi, ← hids.length_eq, hsel.tsigKeyIds.length_eq,
        List.length_map]
    · rw [← hrouting, RoutingTable.ofRoutes, Dict.length_ofList_eq.mpr hr, List.length_map,
        ← hroutes.length_eq, hsel.domains.length_eq]
    · obtain ⟨e, hem, he⟩ := exists_related hkeys (hsel.tsigKeys.symm.subset hm)
      obtain ⟨i, him, n, hn, rfl⟩ :=
        exists_related hids (hsel.tsigKeyIds.symm.subset (List.mem_map_of_mem hm))
      obtain rfl := Except.ok.inj (hn.symm.trans (rowKey_ok he))
      refine ⟨e, he, ?_, ?_⟩
      · rw [← hkeyring]
        exact Dict.get?_ofList_of_distinct hk hem
      · rw [← hidmap]
        exact Dict.get?_ofList_of_distinct hi him
    · obtain ⟨r, hrm, hroute⟩ := exists_related hroutes (hsel.domains.symm.subset hm)
      refine ⟨r, hroute, match_of_get? ?_⟩
      rw [← hrouting]
      exact Dict.get?_ofList_of_distinct hr (List.mem_map_of_mem hrm)

end Built

/-- The snapshot of a database that requests reach is one-to-one with its rows, whatever their
order, exactly when no two names in it are read as the same. -/
theorem reachable_faithful_iff {reqs : List Request} {db : Database Token}
    (h : (api F kek).Run reqs db) {rows : Selected Token} {s : CacheSnapshot}
    (hsel : Selects db.tables rows) (hl : load E F kek rows = .ok s) :
    Faithful E F kek db.tables s ↔ NamesApart E db.tables :=
  faithful_iff hsel (built_of_load (sound_of_run h) db.consistent hsel hl)

section Sample

def sampleKey (name : String) (drawn : UInt8) : Request :=
  .createTsigKey ⟨name, "hmac-sha256"⟩ (List.replicate 32 drawn) 0

theorem letterCase_collapses :
    (handle plainFernet sampleKek .empty (sampleKey "Key" 1)).1 = Status.created ∧
      (handle plainFernet sampleKek (handle plainFernet sampleKek .empty (sampleKey "Key" 1)).2
        (sampleKey "key" 2)).1 = Status.created ∧
      (api plainFernet sampleKek).Run [sampleKey "Key" 1, sampleKey "key" 2]
        (afterTwo (sampleKey "Key" 1) (sampleKey "key" 2)) ∧
      ∃ s, load asciiPlatform plainFernet sampleKek
          (rowsOf (afterTwo (sampleKey "Key" 1) (sampleKey "key" 2)).tables) = .ok s ∧
        ¬ Faithful asciiPlatform plainFernet sampleKek
          (afterTwo (sampleKey "Key" 1) (sampleKey "key" 2)).tables s := by
  refine ⟨by decide +kernel, by decide +kernel, run_afterTwo _ _, ?_⟩
  have hone : (load asciiPlatform plainFernet sampleKek
      (rowsOf (afterTwo (sampleKey "Key" 1) (sampleKey "key" 2)).tables)).toOption.map
        (fun s => s.runtime.keyring.entries.length) = some 1 := by decide +kernel
  have htwo : (afterTwo (sampleKey "Key" 1) (sampleKey "key" 2)).tables.tsigKeys.length = 2 := by
    decide +kernel
  obtain ⟨s, hl, hone⟩ := returns_of_map hone
  refine ⟨s, hl, fun h => ?_⟩
  have hlen := h.keyCount
  omega

theorem twoKeys_faithful :
    (api plainFernet sampleKek).Run [sampleKey "a" 1, sampleKey "b" 2]
        (afterTwo (sampleKey "a" 1) (sampleKey "b" 2)) ∧
      ∃ s, load asciiPlatform plainFernet sampleKek
          (rowsOf (afterTwo (sampleKey "a" 1) (sampleKey "b" 2)).tables) = .ok s ∧
        Faithful asciiPlatform plainFernet sampleKek
          (afterTwo (sampleKey "a" 1) (sampleKey "b" 2)).tables s := by
  refine ⟨run_afterTwo _ _, ?_⟩
  have hsome : (load asciiPlatform plainFernet sampleKek
      (rowsOf (afterTwo (sampleKey "a" 1) (sampleKey "b" 2)).tables)).toOption.isSome := by
    decide +kernel
  have hk : (afterTwo (sampleKey "a" 1) (sampleKey "b" 2)).tables.tsigKeys.map TsigKeyRow.name =
      ["a", "b"] := by
    decide +kernel
  have hd : (afterTwo (sampleKey "a" 1) (sampleKey "b" 2)).tables.domains = [] := by decide +kernel
  have hab : Apart asciiPlatform "a" "b" := by
    intro m n hm hn
    have ha : Name.fromText asciiPlatform.fromUnicode "a" = .ok ⟨[[97]], by decide⟩ := by
      decide +kernel
    have hb : Name.fromText asciiPlatform.fromUnicode "b" = .ok ⟨[[98]], by decide⟩ := by
      decide +kernel
    obtain rfl := Except.ok.inj (ha.symm.trans hm)
    obtain rfl := Except.ok.inj (hb.symm.trans hn)
    decide
  obtain ⟨s, hl⟩ := returns_of_isSome hsome
  refine ⟨s, hl, (reachable_faithful_iff (run_afterTwo _ _) (selects_self _) hl).mpr ⟨?_, ?_⟩⟩
  · rw [← List.pairwise_map (f := TsigKeyRow.name) (R := Apart asciiPlatform), hk]
    exact List.pairwise_pair.mpr hab
  · rw [hd]
    exact .nil

end Sample

end AstropathRelay.Cache
