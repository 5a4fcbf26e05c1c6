import AstropathRelay.Cache.Loads
import AstropathRelay.DataPlane.WriteSurface

/-! Which record names a configured relay writes. -/

namespace AstropathRelay.Cache

open Lib Lib.Results Lib.ByteStrings Dns DataPlane Providers Store Api

def IsChallenge (recordName zone : Name) : Prop :=
  recordName.canonicalize.labels = Name.octetsOf "_acme-challenge" :: zone.canonicalize.labels

variable {Key Token : Type} (E : Platform) {F : Fernet Key Token} {kek : Kek Key}

def ChallengeOnly (t : Tables Token) (out : Dispatched ProviderRef) : Prop :=
  ∀ c ∈ calls out, ∃ d ∈ t.domains, ∃ zone recordName,
    Name.fromText E.fromUnicode d.zone = .ok zone ∧
    Name.fromText E.fromUnicode c.recordName = .ok recordName ∧ IsChallenge recordName zone

def ChallengeOf (zone recordName : String) : Prop :=
  ∀ m n, Name.fromText E.fromUnicode zone = .ok m → Name.fromText E.fromUnicode recordName = .ok n →
    IsChallenge n m

def RequestChallenge : Request → Prop
  | .createDomain payload _ => ChallengeOf E payload.zone payload.recordName
  | _ => True

variable {E}

lemma challenges_of_run {reqs : List Request} {db : Database Token} (h : ((api F kek).restrict
      (fun db req => (handle F kek db req).1 = req.success → RequestChallenge E req)).Run reqs db) :
    ∀ d ∈ db.tables.domains, ChallengeOf E d.zone d.recordName := by
  refine System.Run.invariant (I := fun db => ∀ d ∈ db.tables.domains,
    ChallengeOf E d.zone d.recordName) ?_ ?_ h
  · rintro db rfl
    simp [Database.empty]
  · rintro db req db' hi ⟨hreq, hs⟩ d hd
    rcases domain_of_handle hs hd with hd | ⟨payload, r, rfl, hok, hz, hr⟩
    · exact hi d hd
    · rw [hz, hr]
      exact hreq hok

/-- After a run that only accepts domains with the challenge name of their zone, and a load, every
provider call of every dispatch is about the challenge name of a configured zone. -/
theorem dispatch_challengeOnly {reqs : List Request} {db : Database Token}
    (h : ((api F kek).restrict (fun db req =>
      (handle F kek db req).1 = req.success → RequestChallenge E req)).Run reqs db)
    {rows : Selected Token} {s : CacheSnapshot}
    (hsel : Selects db.tables rows) (hl : load E F kek rows = .ok s)
    (resolver : Option (Name → Option ℕ)) (w : World) (source : String) (msg : Message) :
    ChallengeOnly E db.tables
      (dispatch ProviderRef.type s.runtime.routing resolver w source msg) := by
  intro c hc
  obtain ⟨-, -, routes, hroutes, hrouting⟩ :=
    built_of_load (sound_of_run h.of_restrict) db.consistent hsel hl
  obtain ⟨route, rrset, hch, rfl⟩ := checked_of_call hc
  obtain ⟨z, -, hmatch⟩ := hch.zone
  rw [← hrouting] at hmatch
  obtain ⟨d, hd, b, -, p, zone, recordName, -, -, hz, hr, rfl⟩ :=
    exists_related (R := flip (RowRoute E db.tables)) hroutes.flip (mem_of_match hmatch)
  have hd := hsel.domains.subset hd
  refine ⟨d, hd, zone, rrset.name, hz, Name.fromText_toText _ _, ?_⟩
  have howner := Name.beq_iff.mp hch.owner
  have hchallenge := challenges_of_run h d hd zone recordName hz hr
  rw [Name.canonicalize_idem] at howner
  rw [IsChallenge, howner]
  exact hchallenge

section Sample

def wwwDomain : Request := .createDomain ⟨"example.com", 1, "www.example.com", none⟩ 0

def exampleName : Name := ⟨[Name.octetsOf "example", Name.octetsOf "com"], by decide +kernel⟩

def wwwName : Name :=
  ⟨[Name.octetsOf "www", Name.octetsOf "example", Name.octetsOf "com"], by decide +kernel⟩

lemma fromText_example :
    Name.fromText asciiPlatform.fromUnicode "example.com" = .ok exampleName := by decide +kernel

def wwwUpdate : Message where
  id := 0
  flags := 0x2800
  question := [⟨exampleName, RdClass.internet, RdType.soa, none, []⟩]
  authority := [⟨wwwName, RdClass.internet, RdType.txt, none, [.txt [[120]]]⟩]

def dispatched (s : CacheSnapshot) (msg : Message) : Dispatched ProviderRef :=
  dispatch ProviderRef.type s.runtime.routing none ⟨.ok, 0, 0, none⟩ "" msg

theorem wwwDomain_written : (handle plainFernet sampleKek .empty sampleBackend).1 = Status.created ∧
    (handle plainFernet sampleKek (handle plainFernet sampleKek .empty sampleBackend).2
      wwwDomain).1 = Status.created ∧
    (api plainFernet sampleKek).Run [sampleBackend, wwwDomain] (afterTwo sampleBackend wwwDomain) ∧
    ∃ s, load asciiPlatform plainFernet sampleKek
        (rowsOf (afterTwo sampleBackend wwwDomain).tables) = .ok s ∧
      ¬ ChallengeOnly asciiPlatform (afterTwo sampleBackend wwwDomain).tables
        (dispatched s wwwUpdate) := by
  refine ⟨by decide +kernel, by decide +kernel, run_afterTwo _ _, ?_⟩
  have hcalls : (load asciiPlatform plainFernet sampleKek
      (rowsOf (afterTwo sampleBackend wwwDomain).tables)).toOption.map
      (fun s => (calls (dispatched s wwwUpdate)).map ProviderCall.recordName) =
      some ["www.example.com."] := by
    decide +kernel
  have hzones : (afterTwo sampleBackend wwwDomain).tables.domains.map DomainRow.zone =
      ["example.com"] := by
    decide +kernel
  obtain ⟨s, hl, hcalls⟩ := returns_of_map hcalls
  refine ⟨s, hl, fun h => ?_⟩
  obtain ⟨c, hc, hname⟩ : ∃ c ∈ calls (dispatched s wwwUpdate),
      c.recordName = "www.example.com." := by
    rw [← List.mem_map, hcalls, List.mem_singleton]
  obtain ⟨d, hd, zone, recordName, hz, hr, hch⟩ := h c hc
  have hzone : d.zone = "example.com" := by
    rw [← List.mem_singleton, ← hzones]
    exact List.mem_map_of_mem hd
  have hwww : Name.fromText asciiPlatform.fromUnicode "www.example.com." = .ok wwwName := by
    decide +kernel
  rw [hzone] at hz
  rw [hname] at hr
  obtain rfl := Except.ok.inj (fromText_example.symm.trans hz)
  obtain rfl := Except.ok.inj (hwww.symm.trans hr)
  revert hch
  rw [IsChallenge]
  decide +kernel

theorem sampleDomain_challengeOnly :
    ∃ s, load asciiPlatform plainFernet sampleKek
        (rowsOf (afterTwo sampleBackend sampleDomain).tables) = .ok s ∧
      ∀ msg, ChallengeOnly asciiPlatform (afterTwo sampleBackend sampleDomain).tables
        (dispatched s msg) := by
  have hsome : (load asciiPlatform plainFernet sampleKek
      (rowsOf (afterTwo sampleBackend sampleDomain).tables)).toOption.isSome := by decide +kernel
  have hchallenge : RequestChallenge asciiPlatform sampleDomain := by
    intro m n hm hn
    have hr : Name.fromText asciiPlatform.fromUnicode "_acme-challenge.example.com" =
        .ok ⟨[Name.octetsOf "_acme-challenge", Name.octetsOf "example", Name.octetsOf "com"],
        by decide +kernel⟩ := by
      decide +kernel
    obtain rfl := Except.ok.inj (fromText_example.symm.trans hm)
    obtain rfl := Except.ok.inj (hr.symm.trans hn)
    rw [IsChallenge]
    decide +kernel
  have hrun : ((api plainFernet sampleKek).restrict
      (fun db req => (handle plainFernet sampleKek db req).1 = req.success →
      RequestChallenge asciiPlatform req)).Run [sampleBackend,
      sampleDomain] (afterTwo sampleBackend sampleDomain) :=
    .two rfl ⟨fun _ => trivial, rfl⟩ ⟨fun _ => hchallenge, rfl⟩
  obtain ⟨s, hl⟩ := returns_of_isSome hsome
  exact ⟨s, hl, dispatch_challengeOnly hrun (selects_self _) hl none ⟨.ok, 0, 0, none⟩ ""⟩

end Sample

end AstropathRelay.Cache
