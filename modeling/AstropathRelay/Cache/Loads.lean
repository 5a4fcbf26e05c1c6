import AstropathRelay.Cache.Snapshot

/-! Which databases of accepted rows can be loaded. -/

namespace AstropathRelay.Cache

open Lib Lib.Results Dns DataPlane Providers Store Api

variable {Key Token : Type} (E : Platform) (F : Fernet Key Token) (kek : Kek Key)

def Loads (t : Tables Token) : Prop :=
  ∀ rows, Selects t rows → ∃ runtime, loadRuntime E F kek rows = .ok runtime

def RequestParses : Request → Prop
  | .createDomain payload _ => (∃ n, Name.fromText E.fromUnicode payload.zone = .ok n) ∧
      ∃ n, Name.fromText E.fromUnicode payload.recordName = .ok n
  | .createTsigKey payload _ _ => ∃ n, Name.fromText E.fromUnicode payload.name = .ok n
  | _ => True

variable {E F kek}

def rowsOf (t : Tables Token) : Selected Token :=
  ⟨t.tsigKeys, t.backends, t.domains, t.tsigKeys.map (fun r => (r.id, r.name))⟩

lemma selects_self (t : Tables Token) : Selects t (rowsOf t) :=
  ⟨.refl _, .refl _, .refl _, .refl _⟩

lemma loads_iff {t : Tables Token} (hs : Sound F kek t) (hc : t.Consistent) : Loads E F kek t ↔
    NamesParse E t := by
  constructor
  · intro h
    exact (loadRuntime_returns_iff hs hc (selects_self t)).mp (h _ (selects_self t))
  · intro h rows hsel
    exact (loadRuntime_returns_iff hs hc hsel).mpr h

lemma NamesParse.step {db db' : Database Token} {req : Request} (h : NamesParse E db.tables)
    (hreq : (handle F kek db req).1 = req.success → RequestParses E req)
    (hs : (handle F kek db req).2 = db') : NamesParse E db'.tables := by
  refine ⟨fun d hd => ?_, fun d hd => ?_, fun k hk => ?_⟩
  · rcases domain_of_handle hs hd with hd | ⟨payload, r, rfl, hok, hz, -⟩
    · exact h.zone d hd
    · rw [hz]
      exact (hreq hok).1
  · rcases domain_of_handle hs hd with hd | ⟨payload, r, rfl, hok, -, hr⟩
    · exact h.recordName d hd
    · rw [hr]
      exact (hreq hok).2
  · rcases tsigKey_of_handle hs hk with hk | ⟨payload, drawn, r, rfl, hok, hn, -⟩
    · exact h.tsigKey k hk
    · rw [hn]
      exact hreq hok

lemma namesParse_of_run {reqs : List Request} {db : Database Token}
    (h : ((api F kek).restrict (fun db req => (handle F kek db req).1 = req.success →
      RequestParses E req)).Run reqs db) : NamesParse E db.tables := by
  refine System.Run.invariant (I := fun db => NamesParse E db.tables) ?_ ?_ h
  · rintro db rfl
    exact ⟨by simp [Database.empty], by simp [Database.empty], by simp [Database.empty]⟩
  · intro db req db' hi hs
    exact hi.step hs.1 hs.2

/-- A database that requests reach loads exactly when all its names parse. It does in every state of
a run that accepts only names that parse. -/
theorem reachable_loads_iff {reqs : List Request} {db : Database Token}
    (h : (api F kek).Run reqs db) :
    (Loads E F kek db.tables ↔ NamesParse E db.tables) ∧
    (((api F kek).restrict (fun db req =>
      (handle F kek db req).1 = req.success → RequestParses E req)).Run reqs db →
        Loads E F kek db.tables) := by
  have hiff := loads_iff (E := E) (sound_of_run h) db.consistent
  exact ⟨hiff, fun hr => hiff.mpr (namesParse_of_run hr)⟩

section Sample

def sampleBackend : Request := .createBackend ⟨"he", "hurricane", ∅⟩ 0

def sampleDomain : Request :=
  .createDomain ⟨"example.com", 1, "_acme-challenge.example.com", some "key"⟩ 0

def emptyLabelDomain : Request := .createDomain ⟨"a..b", 1, "_acme-challenge.a..b", none⟩ 0

def afterTwo (req req' : Request) : Database String :=
  (handle plainFernet sampleKek (handle plainFernet sampleKek .empty req).2 req').2

lemma run_afterTwo (req req' : Request) :
    (api plainFernet sampleKek).Run [req, req'] (afterTwo req req') :=
  .two rfl rfl rfl

theorem emptyLabelDomain_accepted_not_loaded :
    (handle plainFernet sampleKek .empty sampleBackend).1 = Status.created ∧
      (handle plainFernet sampleKek (handle plainFernet sampleKek .empty sampleBackend).2
      emptyLabelDomain).1 = Status.created ∧ (api plainFernet sampleKek).Run [sampleBackend,
      emptyLabelDomain] (afterTwo sampleBackend emptyLabelDomain) ∧ ¬ Loads asciiPlatform
      plainFernet sampleKek (afterTwo sampleBackend emptyLabelDomain).tables := by
  refine ⟨by decide +kernel, by decide +kernel, run_afterTwo _ _, fun h => ?_⟩
  obtain ⟨runtime, hr⟩ := h _ (selects_self _)
  have he : loadRuntime asciiPlatform plainFernet sampleKek
      (rowsOf (afterTwo sampleBackend emptyLabelDomain).tables) =
      .error (.build (.name .emptyLabel)) := by decide +kernel
  rw [he] at hr
  simp at hr

theorem sampleDomain_loads : (api plainFernet sampleKek).Run [sampleBackend,
      sampleDomain] (afterTwo sampleBackend sampleDomain) ∧
    (afterTwo sampleBackend sampleDomain).tables.domains ≠ [] ∧
    Loads asciiPlatform plainFernet sampleKek (afterTwo sampleBackend sampleDomain).tables := by
  refine ⟨run_afterTwo _ _, by decide +kernel, ?_⟩
  refine (reachable_loads_iff (run_afterTwo _ _)).2
    (.two rfl ⟨fun _ => trivial, rfl⟩ ⟨fun _ => ?_, rfl⟩)
  exact ⟨⟨⟨[Name.octetsOf "example", Name.octetsOf "com"], by decide +kernel⟩, by decide +kernel⟩,
    ⟨[Name.octetsOf "_acme-challenge", Name.octetsOf "example", Name.octetsOf "com"],
    by decide +kernel⟩,
    by decide +kernel⟩

end Sample

end AstropathRelay.Cache
