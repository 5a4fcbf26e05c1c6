import AstropathRelay.Dns.Verified

/-! Where `from_wire` raises the errors of a TSIG record: at the last additional record, once all
before it are read. -/

namespace AstropathRelay.Dns

open Lib.ByteStrings

def DnsError.ofTsig : DnsError → Bool
  | .unknownTSIGKey => true
  | .badSignature => true
  | .badTime => true
  | .badKey => true
  | .badAlgorithm => true
  | _ => false

namespace Parser

section Errors

variable {α β : Type} {e : DnsError}

def NoTsigError (x : Parse α) : Prop := ∀ ⦃p e⦄, x p = .error e → e.ofTsig = false

lemma NoTsigError.bind {x : Parse α} {f : α → Parse β} (hx : NoTsigError x)
    (hf : ∀ a, NoTsigError (f a)) : NoTsigError (x >>= f) := by
  intro p e h
  obtain h | ⟨a, q, -, h⟩ := bind_error h
  · exact hx h
  · exact hf a h

lemma NoTsigError.rest {x : Parse α} {f : α → Parse β} {p : Parser} (hx : NoTsigError x)
    (he : e.ofTsig = true)
    (h : (x >>= f) p = .error e) : ∃ a q, x p = .ok (a, q) ∧ f a q = .error e := by
  obtain h | h := bind_error h
  · exact absurd he (by simp [hx h])
  · exact h

lemma noTsigError_pure (a : α) : NoTsigError (pure a : Parse α) := by
  intro p e h
  change Except.ok (a, p) = .error e at h
  simp at h

lemma noTsigError_fail (he : e.ofTsig = false) : NoTsigError (fail e : Parse α) := by
  intro p e' h
  obtain rfl := Except.error.inj h
  exact he

lemma noTsigError_get : NoTsigError (get : Parse Parser) := by
  intro p e h
  exact absurd h (by simp [get, getThe, MonadStateOf.get, StateT.get, pure, Except.pure])

lemma noTsigError_ite {c : Prop} [Decidable c] {x y : Parse α} (hx : NoTsigError x)
    (hy : NoTsigError y) : NoTsigError (if c then x else y) := by
  split <;> assumption

lemma noTsigError_getBytes (n : ℕ) : NoTsigError (getBytes n) := by
  intro p e h
  unfold getBytes at h
  split at h
  · obtain rfl := Except.error.inj h
    rfl
  · simp at h

lemma noTsigError_getUint (w : ℕ) : NoTsigError (getUint w) :=
  (noTsigError_getBytes w).bind (fun _ => noTsigError_pure _)

lemma noTsigError_getCountedBytes (w : ℕ) : NoTsigError (getCountedBytes w) :=
  (noTsigError_getUint w).bind noTsigError_getBytes

lemma noTsigError_seek (n : ℕ) : NoTsigError (seek n) := by
  intro p e h
  unfold seek at h
  split at h
  · obtain rfl := Except.error.inj h
    rfl
  · simp at h

lemma noTsigError_getLabels (fuel biggest : ℕ) (labels : List Label) :
    NoTsigError (getLabels fuel biggest labels) := by
  induction fuel generalizing biggest labels with
  | zero => exact noTsigError_fail rfl
  | succ fuel ih =>
    refine (noTsigError_getUint 1).bind (fun count => noTsigError_ite (noTsigError_pure labels) ?_)
    refine noTsigError_ite ((noTsigError_getBytes count).bind (fun l => ih biggest _)) ?_
    refine noTsigError_ite ((noTsigError_getUint 1).bind (fun low => ?_)) (noTsigError_fail rfl)
    exact noTsigError_ite (noTsigError_fail rfl) ((noTsigError_seek _).bind (fun _ => ih _ labels))

lemma noTsigError_liftName (r : Except NameError Name) : NoTsigError (liftName r) := by
  intro p e h
  unfold liftName at h
  split at h
  · simp at h
  · obtain rfl := Except.error.inj h
    rfl

lemma noTsigError_getName : NoTsigError getName := by
  intro p e h
  have hr : NoTsigError restoreFurthest := fun q e h => by simp [restoreFurthest] at h
  have hn : NoTsigError (getNameAt p.current) :=
    (noTsigError_getLabels _ _ []).bind (fun labels => hr.bind (fun _ => noTsigError_liftName _))
  exact hn h

lemma noTsigError_header : NoTsigError header := by
  have h := noTsigError_getUint 2
  exact h.bind fun _ => h.bind fun _ => h.bind fun _ => h.bind fun _ => h.bind fun _ =>
    h.bind fun _ =>
    noTsigError_pure _

lemma noTsigError_recordFields : NoTsigError recordFields :=
  noTsigError_getName.bind fun _ => (noTsigError_getUint 2).bind fun _ =>
    (noTsigError_getUint 2).bind fun _ =>
    (noTsigError_getUint 4).bind fun _ => (noTsigError_getUint 2).bind fun _ => noTsigError_pure _

lemma withHeader_tsigError {f : ℕ → ℕ → ℕ → ℕ → ℕ → ℕ → Parse α} {p : Parser} (he : e.ofTsig = true)
    (h : withHeader f p = .error e) :
    ∃ r q, header p = .ok (r, q) ∧ f r.id r.flags r.qd r.an r.ns r.ar q = .error e :=
  noTsigError_header.rest he ((congrFun (withHeader_eq f) p).symm.trans h)

lemma withFields_tsigError {f : Name → ℕ → ℕ → ℕ → ℕ → Parse α} {p : Parser} (he : e.ofTsig = true)
    (h : withFields f p = .error e) :
    ∃ r q, recordFields p = .ok (r, q) ∧ f r.name r.rdtype r.rdclass r.ttl r.rdlen q = .error e :=
  noTsigError_recordFields.rest he ((congrFun (withFields_eq f) p).symm.trans h)

lemma noTsigError_restrictTo {body : Parse α} (size : ℕ) (hb : NoTsigError body) :
    NoTsigError (restrictTo size body) := by
  intro p e h
  unfold restrictTo at h
  split at h
  · obtain rfl := Except.error.inj h
    rfl
  · split at h
    · next e' he' =>
      obtain rfl := Except.error.inj h
      exact hb he'
    · split at h
      · obtain rfl := Except.error.inj h
        rfl
      · simp at h

end Errors

end Parser

namespace Reader

open Dns.Parser

section Errors

lemma noTsigError_getStrings (fuel : ℕ) (ss : List Octets) : NoTsigError (getStrings fuel ss) := by
  induction fuel generalizing ss with
  | zero => exact noTsigError_pure ss
  | succ fuel ih =>
    refine noTsigError_get.bind (fun p => noTsigError_ite (noTsigError_pure ss) ?_)
    exact (noTsigError_getCountedBytes 1).bind (fun s => ih _)

lemma noTsigError_getTxt (rdlen : ℕ) : NoTsigError (getTxt rdlen) :=
  (noTsigError_getStrings rdlen []).bind
    (fun _ => noTsigError_ite (noTsigError_fail rfl) (noTsigError_pure _))

lemma noTsigError_getOther (ok : Octets → ℕ → ℕ → Bool)
    (rdlen : ℕ) : NoTsigError (getOther ok rdlen) :=
  noTsigError_get.bind fun _ =>
    noTsigError_ite ((noTsigError_getBytes rdlen).bind fun _ =>
      noTsigError_pure _) (noTsigError_fail rfl)

lemma noTsigError_getTsig : NoTsigError getTsig :=
  noTsigError_getName.bind fun _ => (noTsigError_getUint 6).bind fun _ =>
    (noTsigError_getUint 2).bind fun _ =>
    (noTsigError_getCountedBytes 2).bind fun _ => (noTsigError_getUint 2).bind fun _ =>
    (noTsigError_getUint 2).bind fun _ => (noTsigError_getCountedBytes 2).bind fun _ =>
    noTsigError_ite (noTsigError_fail rfl) (noTsigError_pure _)

lemma noTsigError_getQuestion (n : ℕ) (m : Message) : NoTsigError (getQuestion n m) := by
  induction n generalizing m with
  | zero => exact noTsigError_pure m
  | succ n ih =>
    refine noTsigError_getName.bind fun _ => (noTsigError_getUint 2).bind fun _ =>
      (noTsigError_getUint 2).bind fun _ => ?_
    exact (noTsigError_ite (noTsigError_fail rfl) (noTsigError_pure _)).bind fun _ => ih _

lemma noTsigError_recordHeader (m : Message) (s : Section) (rdclass : ℕ) :
    NoTsigError (recordHeader m s rdclass) := by
  unfold recordHeader
  refine noTsigError_ite ?_ (noTsigError_pure _)
  split
  · exact noTsigError_fail rfl
  · exact noTsigError_ite (noTsigError_pure _) (noTsigError_pure _)

variable (R : Reader)

lemma noTsigError_getRdata (rdclass rdtype rdlen : ℕ) :
    NoTsigError (R.getRdata rdclass rdtype rdlen) :=
  noTsigError_restrictTo rdlen
    (noTsigError_ite (noTsigError_getTxt rdlen) (noTsigError_getOther _ rdlen))

lemma noTsigError_getPlain (s : Section) (name : Name) (rdtype rdclass rdlen : ℕ) (m : Message) :
    NoTsigError (R.getPlain s name rdtype rdclass rdlen m) := by
  refine (noTsigError_recordHeader m s rdclass).bind (fun h => ?_)
  refine noTsigError_ite (noTsigError_ite (noTsigError_fail rfl) (noTsigError_pure _)) ?_
  exact (R.noTsigError_getRdata h.1 rdtype rdlen).bind (fun _ => noTsigError_pure _)

end Errors

section Checking

def tsigRecordAt (start : ℕ) : Parse TsigRecord := do
  let owner ← getName
  let rdtype ← getUint 2
  let rdclass ← getUint 2
  let _ ← getUint 4
  let rdlen ← getUint 2
  if rdtype = RdType.tsig ∧ rdclass = RdClass.any then
    let rdata ← restrictTo rdlen getTsig
    return ⟨owner, rdata, start⟩
  else fail .badTSIG

def tsigRecord : Parse TsigRecord := fun p => tsigRecordAt p.current p

variable (R : Reader)

def getRecords (s : Section) : ℕ → Message → Parse Message
  | 0, m => pure m
  | n + 1, m => do
    let m ← R.getRecord s false m
    getRecords s n m

def readToTsig : Parse (Message × TsigRecord) := do
  let id ← getUint 2
  let flags ← getUint 2
  let qd ← getUint 2
  let an ← getUint 2
  let ns ← getUint 2
  let ar ← getUint 2
  let m ← getQuestion qd { id, flags }
  let m ← R.getSection .answer an m
  let m ← R.getSection .authority ns m
  if ar = 0 then fail .badTSIG
  else
    let m ← R.getRecords .additional (ar - 1) m
    let t ← tsigRecord
    return (m, t)

lemma getSection_eq_getRecords {s : Section} (hs : s ≠ .additional) (n : ℕ) (m : Message) :
    R.getSection s n m = R.getRecords s n m := by
  have hr (last : Bool) (m : Message) : R.getRecord s last m = R.getRecord s false m := by
    funext p
    simp only [getRecord, getRecordAt, ne_eq, hs, not_false_eq_true, true_or, ↓reduceIte]
  induction n generalizing m with
  | zero => rfl
  | succ n ih =>
    rw [getSection, getRecords, hr]
    exact congrArg (R.getRecord s false m >>= ·) (funext ih)

variable {R} {s : Section} {m : Message} {p q : Parser} {e : DnsError}

lemma getRecord_tsigError {last : Bool} (he : e.ofTsig = true)
    (h : R.getRecord s last m p = .error e) : (s = .additional ∧ last = true) ∧
    ∃ t q, tsigRecord p = .ok (t, q) ∧ R.checkTsig t.start t.owner t.rdata m q = .error e := by
  obtain ⟨r, p₁, h₁, h⟩ := withFields_tsigError he h
  split at h
  · next ht =>
    split at h
    · exact absurd he (by simp [← Except.error.inj h, DnsError.ofTsig])
    · next hc =>
      push Not at hc
      obtain ⟨rdata, p₂, h₂, h⟩ := (noTsigError_restrictTo r.rdlen noTsigError_getTsig).rest he h
      refine ⟨⟨hc.1, by simpa using hc.2.2⟩, ⟨r.name, rdata, p.current⟩, p₂, ?_, h⟩
      refine (withFields_of_ok h₁ _).trans ?_
      rw [if_pos ⟨ht, hc.2.1⟩]
      exact bind_ok.mpr ⟨_, _, h₂, rfl⟩
  · split at h
    · split at h
      · exact absurd he (by simp [← Except.error.inj h, DnsError.ofTsig])
      · have ho := noTsigError_restrictTo r.rdlen
          (noTsigError_getOther (R.rdataOk r.rdclass r.rdtype) r.rdlen)
        exact absurd he (by simp [ho.bind (fun _ => noTsigError_pure _) h])
    · exact absurd he (by simp [R.noTsigError_getPlain s r.name r.rdtype r.rdclass r.rdlen m h])

lemma getSection_tsigError {n : ℕ} (he : e.ofTsig = true) (h : R.getSection s n m p = .error e) :
    s = .additional ∧ n ≠ 0 ∧ ∃ m' p' t q, R.getRecords s (n - 1) m p = .ok (m', p') ∧
      tsigRecord p' = .ok (t, q) ∧ R.checkTsig t.start t.owner t.rdata m' q = .error e := by
  induction n generalizing m p with
  | zero => exact absurd he (by simp [noTsigError_pure m h])
  | succ n ih =>
    obtain h | ⟨m₁, p₁, h₁, h⟩ := bind_error h
    · obtain ⟨⟨hs, hl⟩, t, q, ht, hc⟩ := getRecord_tsigError he h
      obtain rfl : n = 0 := by simpa using hl
      exact ⟨hs, by omega, m, p, t, q, rfl, ht, hc⟩
    · obtain ⟨hs, hn, m', p', t, q, hr, ht, hc⟩ := ih h
      obtain ⟨k, rfl⟩ := Nat.exists_eq_succ_of_ne_zero hn
      exact ⟨hs, by omega, m', p', t, q, bind_ok.mpr ⟨m₁, p₁, by simpa using h₁, hr⟩, ht, hc⟩

lemma noTsigError_getSection (hs : s ≠ .additional) (n : ℕ)
    (m : Message) : NoTsigError (R.getSection s n m) := by
  intro p e h
  by_contra he
  exact hs (getSection_tsigError (by simpa using he) h).1

lemma getMessage_tsigError (he : e.ofTsig = true) (h : R.getMessage p = .error e) : ∃ m t q,
    R.readToTsig p = .ok ((m, t), q) ∧ R.checkTsig t.start t.owner t.rdata m q = .error e := by
  obtain ⟨r, p₁, h₁, h⟩ := withHeader_tsigError he h
  obtain ⟨m₁, p₂, h₂, h⟩ := (noTsigError_getQuestion r.qd _).rest he h
  obtain ⟨m₂, p₃, h₃, h⟩ := (noTsigError_getSection (by simp) r.an m₁).rest he h
  obtain ⟨m₃, p₄, h₄, h⟩ := (noTsigError_getSection (by simp) r.ns m₂).rest he h
  obtain ⟨-, hn, m', p', t, q, hr, ht, hc⟩ := getSection_tsigError he h
  refine ⟨m', t, q, (withHeader_of_ok h₁ _).trans ?_, hc⟩
  rw [bind_eq_of_ok h₂, bind_eq_of_ok h₃, bind_eq_of_ok h₄, if_neg hn, bind_eq_of_ok hr,
    bind_eq_of_ok ht]
  rfl

lemma getRecord_of_tsigRecord {t : TsigRecord} (h : tsigRecord p = .ok (t, q)) (m : Message) :
    R.getRecord .additional true m p = R.checkTsig t.start t.owner t.rdata m q := by
  obtain ⟨r, p₁, h₁, h⟩ := withFields_ok h
  split at h
  · next hc =>
    obtain ⟨rdata, p₂, h₂, h⟩ := bind_ok.mp h
    obtain ⟨rfl, rfl⟩ := Prod.mk.inj (pure_ok.mp h)
    refine (withFields_of_ok h₁ _).trans ?_
    rw [if_pos hc.1, if_neg (by simp [hc.2]), bind_eq_of_ok h₂]
  · simp at h

lemma getSection_of_getRecords {n : ℕ} {m' : Message} {p' : Parser} {t : TsigRecord}
    (h : R.getRecords .additional n m p = .ok (m', p')) (ht : tsigRecord p' = .ok (t, q)) :
    R.getSection .additional (n + 1) m p = R.checkTsig t.start t.owner t.rdata m' q := by
  induction n generalizing m p with
  | zero =>
    obtain ⟨rfl, rfl⟩ := Prod.mk.inj (pure_ok.mp h)
    rw [← getRecord_of_tsigRecord ht m]
    exact congrFun (bind_pure (R.getRecord .additional true m)) p
  | succ n ih =>
    obtain ⟨m₁, p₁, h₁, h⟩ := bind_ok.mp h
    rw [getSection, bind_eq_of_ok (a := m₁) (q := p₁) (by simpa using h₁)]
    exact ih h

lemma getMessage_of_readToTsig {t : TsigRecord} (h : R.readToTsig p = .ok ((m, t), q)) :
    R.getMessage p = R.checkTsig t.start t.owner t.rdata m q := by
  obtain ⟨r, p₁, h₁, h⟩ := withHeader_ok h
  obtain ⟨m₁, p₂, h₂, h⟩ := bind_ok.mp h
  obtain ⟨m₂, p₃, h₃, h⟩ := bind_ok.mp h
  obtain ⟨m₃, p₄, h₄, h⟩ := bind_ok.mp h
  split at h
  · simp at h
  · next hn =>
    obtain ⟨m', p', hr, h⟩ := bind_ok.mp h
    obtain ⟨t', q', ht, h⟩ := bind_ok.mp h
    obtain ⟨he, rfl⟩ := Prod.mk.inj (pure_ok.mp h)
    obtain ⟨rfl, rfl⟩ := Prod.mk.inj he
    refine (withHeader_of_ok h₁ _).trans ?_
    rw [bind_eq_of_ok h₂, bind_eq_of_ok h₃, bind_eq_of_ok h₄, ← Nat.sub_one_add_one hn]
    exact getSection_of_getRecords hr ht

variable (R) in
def FailsAt (wire : Octets) (t : TsigRecord) (e : DnsError) : Prop :=
  ∃ m q, R.readToTsig (ofWire wire) = .ok ((m, t), q) ∧
    R.getMessage (ofWire wire) = R.checkTsig t.start t.owner t.rdata m q ∧
    R.checkTsig t.start t.owner t.rdata m q = .error e

lemma failsAt_of_fromWire {wire : Octets} (h : R.fromWire wire = .error e) (he : e.ofTsig = true) :
    ∃ t, R.FailsAt wire t e := by
  unfold fromWire at h
  split at h
  · exact absurd he (by simp [← Except.error.inj h, DnsError.ofTsig])
  · split at h
    · next e' hm =>
      obtain rfl := Except.error.inj h
      obtain ⟨m, t, q, hr, hc⟩ := getMessage_tsigError he hm
      exact ⟨t, m, q, hr, getMessage_of_readToTsig hr, hc⟩
    · split at h
      · exact absurd he (by simp [← Except.error.inj h, DnsError.ofTsig])
      · simp at h

lemma checkTsig_error {start : ℕ} {owner : Name} {t : TsigRdata}
    (h : R.checkTsig start owner t m p = .error e) :
    (e = .unknownTSIGKey ∧ R.keyring.get? owner = none) ∨
      (e ≠ .unknownTSIGKey ∧ ∃ key, R.keyring.get? owner = some key) := by
  unfold checkTsig at h
  split at h
  · next hk => exact Or.inl ⟨(Except.error.inj h).symm, hk⟩
  · next key hk =>
    split at h
    · next e' hv =>
      obtain rfl := Except.error.inj h
      refine Or.inr ⟨?_, key, hk⟩
      rintro rfl
      unfold Tsig.validate at hv
      split_ifs at hv <;> simp at hv
    · simp at h

end Checking

end Reader

end AstropathRelay.Dns
