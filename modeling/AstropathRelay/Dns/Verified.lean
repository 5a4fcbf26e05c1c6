import AstropathRelay.Dns.Message

/-! What a message that `from_wire` accepted with a TSIG record is: the record stood last, its key
is in the keyring, and the octets before it are long enough for the sections the header announces.
-/

namespace AstropathRelay.Dns.Reader

open Lib.ByteStrings Dns.Parser

section Progress

lemma advances_getStrings (fuel : ℕ) (ss : List Octets) : Advances 0 (getStrings fuel ss) := by
  induction fuel generalizing ss with
  | zero => exact advances_pure ss
  | succ fuel ih =>
    refine advances_get.bind (fun p => advances_ite (advances_pure ss) ?_)
    exact ((advances_getCountedBytes 1).bind (fun s => ih _)).mono (Nat.zero_le _)

lemma advances_getTxt (rdlen : ℕ) : Advances 0 (getTxt rdlen) :=
  (advances_getStrings rdlen []).bind (fun _ => advances_ite (advances_fail 0 _) (advances_pure _))

lemma advances_getOther (ok : Octets → ℕ → ℕ → Bool)
    (rdlen : ℕ) : Advances 0 (getOther ok rdlen) := by
  refine advances_get.bind (fun p => advances_ite ?_ (advances_fail 0 _))
  exact ((advances_getBytes rdlen).bind (fun _ => advances_pure _)).mono (Nat.zero_le _)

lemma advances_getTsig : Advances 0 getTsig := by
  have h : Advances (1 + (6 + (2 + (2 + (2 + (2 + (2 + 0))))))) getTsig :=
    advances_getName.bind fun _ => (advances_getUint 6).bind fun _ =>
      (advances_getUint 2).bind fun _ =>
      (advances_getCountedBytes 2).bind fun _ => (advances_getUint 2).bind fun _ =>
      (advances_getUint 2).bind fun _ => (advances_getCountedBytes 2).bind fun _ =>
      advances_ite (advances_fail 0 _) (advances_pure _)
  exact h.mono (Nat.zero_le _)

lemma advances_getQuestion (n : ℕ) (m : Message) : Advances (5 * n) (getQuestion n m) := by
  induction n generalizing m with
  | zero => exact advances_pure m
  | succ n ih =>
    have hh (rdclass rdtype : ℕ) : Advances 0 (questionHeader m rdclass rdtype) :=
      advances_ite (advances_fail 0 _) (advances_pure _)
    have h : Advances (1 + (2 + (2 + (0 + 5 * n)))) (getQuestion (n + 1) m) :=
      advances_getName.bind fun _ => (advances_getUint 2).bind fun _ =>
        (advances_getUint 2).bind fun _ =>
        (hh _ _).bind fun _ => ih _
    exact h.mono (by omega)

variable (R : Reader)

lemma advances_getRdata (rdclass rdtype rdlen : ℕ) :
    Advances 0 (R.getRdata rdclass rdtype rdlen) := by
  have hb : Advances 0 (if rdtype = RdType.txt then getTxt rdlen
      else getOther (R.rdataOk rdclass rdtype) rdlen) :=
    advances_ite (advances_getTxt rdlen) (advances_getOther _ rdlen)
  exact (advances_restrictTo rdlen hb).mono (Nat.zero_le _)

variable {R} in
lemma checkTsig_state {start : ℕ} {owner : Name} {t : TsigRdata} {m m' : Message} {p q : Parser}
    (h : R.checkTsig start owner t m p = .ok (m', q)) : q = p := by
  unfold checkTsig at h
  split at h
  · simp at h
  · split at h
    · simp at h
    · exact (Prod.mk.inj (Except.ok.inj h)).2.symm

lemma advances_checkTsig (start : ℕ) (owner : Name) (t : TsigRdata) (m : Message) :
    Advances 0 (R.checkTsig start owner t m) := by
  intro p q m' h
  obtain rfl := checkTsig_state h
  exact ⟨rfl, rfl, le_rfl, le_rfl⟩

lemma advances_recordHeader (m : Message) (s : Section)
    (rdclass : ℕ) : Advances 0 (recordHeader m s rdclass) := by
  rw [recordHeader]
  refine advances_ite ?_ (advances_pure _)
  split
  · exact advances_fail 0 _
  · exact advances_ite (advances_pure _) (advances_pure _)

lemma advances_getPlain (s : Section) (name : Name) (rdtype rdclass rdlen : ℕ) (m : Message) :
    Advances 0 (R.getPlain s name rdtype rdclass rdlen m) := by
  refine Advances.bind (k := 0) (advances_recordHeader m s rdclass) (fun h => ?_)
  refine advances_ite (advances_ite (advances_fail 0 _) (advances_pure _)) ?_
  exact (R.advances_getRdata h.1 rdtype rdlen).bind (fun _ => advances_pure _)

lemma advances_getRecord (s : Section) (last : Bool)
    (m : Message) : Advances 11 (R.getRecord s last m) := by
  intro p q m' h
  have ht (rdlen : ℕ) (name : Name) :
      Advances 0 (restrictTo rdlen getTsig >>= fun t => R.checkTsig p.current name t m) :=
    ((advances_restrictTo rdlen advances_getTsig).bind fun t =>
      R.advances_checkTsig _ _ t m).mono (Nat.zero_le _)
  have ho (rdclass rdtype rdlen : ℕ) : Advances 0 (restrictTo rdlen
      (getOther (R.rdataOk rdclass rdtype) rdlen) >>= fun _ => pure { m with opt := true }) :=
    ((advances_restrictTo rdlen (advances_getOther _ rdlen)).bind fun _ =>
      advances_pure _).mono (Nat.zero_le _)
  have ha : Advances (1 + (2 + (2 + (4 + (2 + 0))))) (R.getRecordAt p.current s last m) :=
    advances_getName.bind fun _ => (advances_getUint 2).bind fun _ =>
      (advances_getUint 2).bind fun _ =>
      (advances_getUint 4).bind fun _ => (advances_getUint 2).bind fun _ =>
      advances_ite (advances_ite (advances_fail 0 _) (ht _ _)) (advances_ite
        (advances_ite (advances_fail 0 _) (ho _ _ _)) (R.advances_getPlain _ _ _ _ _ _))
  exact ha h

lemma advances_getSection (s : Section) (n : ℕ)
    (m : Message) : Advances (11 * n) (R.getSection s n m) := by
  induction n generalizing m with
  | zero => exact advances_pure m
  | succ n ih => exact ((R.advances_getRecord s _ m).bind (fun m => ih m)).mono (by omega)

end Progress

structure Accepted (R : Reader) (wire : Octets) (t : TsigRecord) (key : Key) : Prop where
  inKeyring : R.keyring.get? t.owner = some key
  valid : Tsig.validate R.hmac wire key t.owner t.rdata R.now [] t.start = .ok ()
  other : t.rdata.other.length < 65536

structure Reads (R : Reader) (wire : Octets) (start : ℕ) (m m' : Message) : Prop where
  id : m'.id = m.id
  flags : m'.flags = m.flags
  tsig : (m'.tsig = m.tsig ∧ m'.key = m.key) ∨ ∃ t key, start ≤ t.start ∧ t.start < wire.length ∧
    R.Accepted wire t key ∧ m'.tsig = some t ∧ m'.key = some key

lemma checkTsig_ok {R : Reader} {start : ℕ} {owner : Name} {t : TsigRdata} {m m' : Message}
    {p q : Parser} (h : R.checkTsig start owner t m p = .ok (m', q)) :
    ∃ key, (t.other.length < 65536 → R.Accepted p.wire ⟨owner, t, start⟩ key) ∧
      m' = { m with tsig := some ⟨owner, t, start⟩, key := some key } := by
  unfold checkTsig at h
  split at h
  · simp at h
  · next key hk =>
    split at h
    · simp at h
    · next hv =>
      obtain ⟨rfl, -⟩ := Prod.mk.inj (Except.ok.inj h)
      exact ⟨key, fun ho => ⟨hk, hv, ho⟩, rfl⟩

lemma getTsig_other {t : TsigRdata} {p q : Parser} (h : getTsig p = .ok (t, q)) :
    t.other.length < 65536 := by
  obtain ⟨algorithm, p₁, -, h⟩ := bind_ok.mp h
  obtain ⟨timeSigned, p₂, -, h⟩ := bind_ok.mp h
  obtain ⟨fudge, p₃, -, h⟩ := bind_ok.mp h
  obtain ⟨mac, p₄, -, h⟩ := bind_ok.mp h
  obtain ⟨originalId, p₅, -, h⟩ := bind_ok.mp h
  obtain ⟨error, p₆, -, h⟩ := bind_ok.mp h
  obtain ⟨other, p₇, ho, h⟩ := bind_ok.mp h
  split at h
  · simp at h
  · obtain ⟨rfl, -⟩ := Prod.mk.inj (pure_ok.mp h)
    exact getCountedBytes_lt ho

lemma getPlain_ok {R : Reader} {s : Section} {name : Name} {rdtype rdclass rdlen : ℕ}
    {m m' : Message} {p q : Parser} (h : R.getPlain s name rdtype rdclass rdlen m p = .ok (m', q)) :
    m'.id = m.id ∧ m'.flags = m.flags ∧ m'.tsig = m.tsig ∧ m'.key = m.key := by
  obtain ⟨⟨c, d, e⟩, r, -, h⟩ := bind_ok.mp h
  dsimp only at h
  split at h
  · split at h
    · simp at h
    · obtain ⟨rfl, -⟩ := Prod.mk.inj (pure_ok.mp h)
      simp
  · obtain ⟨rd, r', -, h⟩ := bind_ok.mp h
    obtain ⟨rfl, -⟩ := Prod.mk.inj (pure_ok.mp h)
    simp

lemma getRecord_ok {R : Reader} {s : Section} {last : Bool} {m m' : Message} {p q : Parser}
    (hp : p.stop = p.wire.length) (h : R.getRecord s last m p = .ok (m', q)) :
    R.Reads p.wire p.current m m' ∧
      (¬ (s = .additional ∧ last = true) → m'.tsig = m.tsig ∧ m'.key = m.key) := by
  obtain ⟨⟨name, rdtype, rdclass, ttl, rdlen⟩, p₁, h₁, h⟩ := withFields_ok h
  have hw : p₁.wire = p.wire := (advances_recordFields h₁).wire
  dsimp only at h
  split at h
  · split at h
    · simp at h
    · next hc =>
      obtain ⟨t, p₂, h₂, h⟩ := bind_ok.mp h
      obtain ⟨key, ha, rfl⟩ := checkTsig_ok h
      obtain ⟨_, h₃, -, -⟩ := restrictTo_ok h₂
      replace ha := ha (getTsig_other h₃)
      rw [(advances_restrictTo rdlen advances_getTsig h₂).wire, hw] at ha
      have hs : s = .additional ∧ last = true := by
        push Not at hc
        exact ⟨hc.1, by simpa using hc.2.2⟩
      have hin : p.current < p.wire.length := hp ▸ recordFields_inside h₁
      exact ⟨⟨rfl, rfl, Or.inr ⟨⟨name, t, p.current⟩, key, le_rfl, hin, ha, rfl, rfl⟩⟩,
        fun hn => absurd hs hn⟩
  · split at h
    · split at h
      · simp at h
      · obtain ⟨_, p₂, -, h⟩ := bind_ok.mp h
        obtain ⟨rfl, -⟩ := Prod.mk.inj (pure_ok.mp h)
        exact ⟨⟨rfl, rfl, Or.inl ⟨rfl, rfl⟩⟩, fun _ => ⟨rfl, rfl⟩⟩
    · obtain ⟨hi, hf, ht, hk⟩ := getPlain_ok h
      exact ⟨⟨hi, hf, Or.inl ⟨ht, hk⟩⟩, fun _ => ⟨ht, hk⟩⟩

lemma getSection_ok {R : Reader} {s : Section} {n : ℕ} {m m' : Message} {p q : Parser}
    (hp : p.stop = p.wire.length) (h : R.getSection s n m p = .ok (m', q)) :
    R.Reads p.wire (p.current + 11 * (n - 1)) m m' ∧
      (s ≠ .additional → m'.tsig = m.tsig ∧ m'.key = m.key) := by
  induction n generalizing m p with
  | zero =>
    obtain ⟨rfl, rfl⟩ := Prod.mk.inj (pure_ok.mp h)
    exact ⟨⟨rfl, rfl, Or.inl ⟨rfl, rfl⟩⟩, fun _ => ⟨rfl, rfl⟩⟩
  | succ n ih =>
    obtain ⟨m₁, p₁, h₁, h₂⟩ := bind_ok.mp h
    have hm := R.advances_getRecord s _ m h₁
    have hr := getRecord_ok hp h₁
    cases n with
    | zero =>
      obtain ⟨rfl, rfl⟩ := Prod.mk.inj (pure_ok.mp h₂)
      exact ⟨hr.1, fun hs => hr.2 (fun hh => hs hh.1)⟩
    | succ n =>
      have hsame := hr.2 (by simp)
      obtain ⟨hread, hother⟩ := ih (by rw [hm.stop, hp, hm.wire]) h₂
      rw [hm.wire] at hread
      refine ⟨⟨hread.id.trans hr.1.id, hread.flags.trans hr.1.flags, ?_⟩, fun hs => ?_⟩
      · rcases hread.tsig with ⟨ht, hk⟩ | ⟨t, key, hle, hlt, ha, ht, hk⟩
        · exact Or.inl ⟨ht.trans hsame.1, hk.trans hsame.2⟩
        · have hc := hm.current
          exact Or.inr ⟨t, key, by omega, hlt, ha, ht, hk⟩
      · exact ⟨(hother hs).1.trans hsame.1, (hother hs).2.trans hsame.2⟩

lemma getQuestion_ok {n : ℕ} {m m' : Message} {p q : Parser} (h : getQuestion n m p = .ok (m', q)) :
    m'.id = m.id ∧ m'.flags = m.flags ∧ m'.tsig = m.tsig ∧ m'.key = m.key := by
  induction n generalizing m p with
  | zero =>
    obtain ⟨rfl, -⟩ := Prod.mk.inj (pure_ok.mp h)
    exact ⟨rfl, rfl, rfl, rfl⟩
  | succ n ih =>
    obtain ⟨qname, p₁, -, h⟩ := bind_ok.mp h
    obtain ⟨rdtype, p₂, -, h⟩ := bind_ok.mp h
    obtain ⟨rdclass, p₃, -, h⟩ := bind_ok.mp h
    obtain ⟨_, p₄, -, h⟩ := bind_ok.mp h
    have hm := ih h
    exact hm

def field (wire : Octets) (i : ℕ) : ℕ := decode ((wire.drop i).take 2)

lemma field_append {a : Octets} (b : Octets) {i : ℕ} (h : i + 2 ≤ a.length) :
    field (a ++ b) i = field a i := by
  have hd : (a ++ b).drop i = a.drop i ++ b := List.drop_append_of_le_length (by omega)
  have hl : 2 ≤ (a.drop i).length := by
    rw [List.length_drop]
    omega
  rw [field, field, hd, List.take_append_of_le_length hl]

lemma field_drop (a : Octets) (i j : ℕ) : field (a.drop j) i = field a (j + i) := by
  rw [field, field, List.drop_drop]

lemma field_behind (a b : Octets) {i : ℕ} (h : a.length ≤ i) :
    field (a ++ b) i = field b (i - a.length) := by
  rw [field, field, List.drop_append, List.drop_eq_nil_of_le h, List.nil_append]

lemma field_u16 (n : ℕ) (b : Octets) : field (u16 n ++ b) 0 = n % 65536 := by
  rw [field_append b (by simp), field, List.drop_zero, List.take_of_length_le (by simp)]
  exact decode_encode 2 n

def sectionsFloor (wire : Octets) : ℕ :=
  5 * field wire 4 + 11 * (field wire 6 + field wire 8 + (field wire 10 - 1))

lemma header_ofWire {wire : Octets} {r : Header} {q : Parser}
    (h : header (ofWire wire) = .ok (r, q)) :
    r = ⟨field wire 0, field wire 2, field wire 4, field wire 6, field wire 8, field wire 10⟩ ∧
      q.wire = wire ∧ q.current = 12 ∧ q.stop = wire.length := by
  obtain ⟨id, p₁, h₁, h⟩ := bind_ok.mp h
  obtain ⟨flags, p₂, h₂, h⟩ := bind_ok.mp h
  obtain ⟨qd, p₃, h₃, h⟩ := bind_ok.mp h
  obtain ⟨an, p₄, h₄, h⟩ := bind_ok.mp h
  obtain ⟨ns, p₅, h₅, h⟩ := bind_ok.mp h
  obtain ⟨ar, p₆, h₆, h⟩ := bind_ok.mp h
  obtain ⟨rfl, rfl⟩ := Prod.mk.inj (pure_ok.mp h)
  obtain ⟨rfl, w₁, c₁, s₁⟩ := getUint_at h₁
  obtain ⟨rfl, w₂, c₂, s₂⟩ := getUint_at h₂
  obtain ⟨rfl, w₃, c₃, s₃⟩ := getUint_at h₃
  obtain ⟨rfl, w₄, c₄, s₄⟩ := getUint_at h₄
  obtain ⟨rfl, w₅, c₅, s₅⟩ := getUint_at h₅
  obtain ⟨rfl, w₆, c₆, s₆⟩ := getUint_at h₆
  simp only [w₆, w₅, w₄, w₃, w₂, w₁, c₆, c₅, c₄, c₃, c₂, c₁, s₆, s₅, s₄, s₃, s₂, s₁, ofWire, field,
    Nat.zero_add, Nat.reduceAdd, and_self]

lemma getMessage_ok {R : Reader} {wire : Octets} {m : Message} {q : Parser}
    (h : R.getMessage (Parser.ofWire wire) = .ok (m, q)) :
    R.Reads wire (12 + sectionsFloor wire) { id := field wire 0, flags := field wire 2 } m := by
  obtain ⟨r, p₆, h₆, g₆⟩ := withHeader_ok h
  obtain ⟨rfl, w₆, c₆, s₆⟩ := header_ofWire h₆
  dsimp only at g₆
  obtain ⟨m₁, p₇, h₇, g₇⟩ := bind_ok.mp g₆
  obtain ⟨m₂, p₈, h₈, g₈⟩ := bind_ok.mp g₇
  obtain ⟨m₃, p₉, h₉, g₉⟩ := bind_ok.mp g₈
  have a₇ := advances_getQuestion _ _ h₇
  have a₈ := R.advances_getSection .answer _ _ h₈
  have a₉ := R.advances_getSection .authority _ _ h₉
  obtain ⟨i₁, f₁, t₁, k₁⟩ := getQuestion_ok h₇
  have wire₇ : p₇.wire = wire := a₇.wire.trans w₆
  have wire₈ : p₈.wire = wire := a₈.wire.trans wire₇
  have wire₉ : p₉.wire = wire := a₉.wire.trans wire₈
  have stop₇ : p₇.stop = p₇.wire.length := by rw [a₇.stop, s₆, wire₇]
  have stop₈ : p₈.stop = p₈.wire.length := by rw [a₈.stop, stop₇, wire₇, wire₈]
  have stop₉ : p₉.stop = p₉.wire.length := by rw [a₉.stop, stop₈, wire₈, wire₉]
  obtain ⟨r₂, o₂⟩ := getSection_ok stop₇ h₈
  obtain ⟨r₃, o₃⟩ := getSection_ok stop₈ h₉
  obtain ⟨r₄, -⟩ := getSection_ok stop₉ g₉
  have o₂ := o₂ (by simp)
  have o₃ := o₃ (by simp)
  rw [wire₉] at r₄
  refine ⟨r₄.id.trans (r₃.id.trans (r₂.id.trans i₁)),
    r₄.flags.trans (r₃.flags.trans (r₂.flags.trans f₁)), ?_⟩
  rcases r₄.tsig with ⟨ht, hk⟩ | ⟨t, key, hle, hlt, ha, ht, hk⟩
  · exact Or.inl ⟨ht.trans (o₃.1.trans (o₂.1.trans t₁)), hk.trans (o₃.2.trans (o₂.2.trans k₁))⟩
  · have hc₇ := a₇.current
    have hc₈ := a₈.current
    have hc₉ := a₉.current
    refine Or.inr ⟨t, key, ?_, hlt, ha, ht, hk⟩
    rw [sectionsFloor]
    omega

lemma fromWire_reads {R : Reader} {wire : Octets} {m : Message} (h : R.fromWire wire = .ok m) :
    R.Reads wire (12 + sectionsFloor wire) { id := field wire 0, flags := field wire 2 } m := by
  unfold fromWire at h
  split at h
  · simp at h
  · split at h
    · simp at h
    · next hm =>
      split at h
      · simp at h
      · obtain rfl := Except.ok.inj h
        exact getMessage_ok hm

theorem fromWire_ok {R : Reader} {wire : Octets} {m : Message} (h : R.fromWire wire = .ok m) :
    m.flags = field wire 2 ∧
      ((m.tsig = none ∧ m.key = none) ∨
        ∃ t key, 12 + sectionsFloor wire ≤ t.start ∧ t.start < wire.length ∧ R.Accepted wire t key ∧
          m.tsig = some t ∧ m.key = some key) :=
  ⟨(fromWire_reads h).flags, (fromWire_reads h).tsig⟩

end AstropathRelay.Dns.Reader
