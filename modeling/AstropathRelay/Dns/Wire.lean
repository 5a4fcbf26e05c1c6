import AstropathRelay.Dns.NameText

/-! The wire reader of `dns.wire.Parser` and the lemmas that say how far a successful read moves it.
-/

namespace AstropathRelay.Dns

open Lib.ByteStrings

inductive DnsError
  | formError
  | shortHeader
  | trailingJunk
  | badEDNS
  | badTSIG
  | name (e : NameError)
  | unknownTSIGKey
  | peerError
  | badTime
  | badKey
  | badAlgorithm
  | badSignature
  | tooBig
deriving DecidableEq

structure Parser where
  wire : Octets
  current : ℕ
  stop : ℕ
  furthest : ℕ

abbrev Parse := StateT Parser (Except DnsError)

namespace Parser

def ofWire (wire : Octets) : Parser := ⟨wire, 0, wire.length, 0⟩

def remaining (p : Parser) : ℕ := p.stop - p.current

def fail {α : Type} (e : DnsError) : Parse α := fun _ => .error e

def getBytes (n : ℕ) : Parse Octets := fun p =>
  if p.remaining < n then .error .formError
  else .ok ((p.wire.drop p.current).take n,
    { p with current := p.current + n, furthest := max p.furthest (p.current + n) })

def getUint (w : ℕ) : Parse ℕ := do
  let bs ← getBytes w
  return decode bs

def getCountedBytes (w : ℕ) : Parse Octets := do
  let n ← getUint w
  getBytes n

def seek (n : ℕ) : Parse Unit := fun p =>
  if p.stop < n then .error .formError else .ok ((), { p with current := n })

def restrictTo {α : Type} (size : ℕ) (body : Parse α) : Parse α := fun p =>
  if p.remaining < size then .error .formError
  else match body { p with stop := p.current + size } with
    | .error e => .error e
    | .ok (a, q) => if q.current ≠ q.stop then .error .formError
        else .ok (a, { q with stop := p.stop })

/-- The label loop of `dns.name.from_wire_parser`. Each round either adds a label or follows a
pointer below every earlier one, so a name that outlasts the fuel has too many labels to be valid.
-/
def getLabels : ℕ → ℕ → List Label → Parse (List Label)
  | 0, _, _ => fail (.name .nameTooLong)
  | fuel + 1, biggest, labels => do
    let count ← getUint 1
    if count = 0 then return labels
    else if count < 64 then
      let l ← getBytes count
      getLabels fuel biggest (labels ++ [l])
    else if 192 ≤ count then
      let low ← getUint 1
      if biggest ≤ (count - 192) * 256 + low then fail .formError
      else
        seek ((count - 192) * 256 + low)
        getLabels fuel ((count - 192) * 256 + low) labels
    else fail .formError

def restoreFurthest : Parse Unit := fun p => .ok ((), { p with current := p.furthest })

def liftName (r : Except NameError Name) : Parse Name := fun p =>
  match r with
  | .ok n => .ok (n, p)
  | .error e => .error (.name e)

def getNameAt (start : ℕ) : Parse Name := do
  let labels ← getLabels (start + 129) start []
  restoreFurthest
  liftName (Name.make labels)

def getName : Parse Name := fun p => getNameAt p.current p

section Progress

structure Moved (k : ℕ) (p q : Parser) : Prop where
  wire : q.wire = p.wire
  stop : q.stop = p.stop
  current : p.current + k ≤ q.current
  furthest : p.furthest ≤ q.furthest

variable {α β : Type}

lemma bind_ok {x : Parse α} {f : α → Parse β} {p : Parser} {r : β × Parser} :
    (x >>= f) p = .ok r ↔ ∃ a q, x p = .ok (a, q) ∧ f a q = .ok r := by
  simp only [bind, StateT.bind, Except.bind]
  cases hx : x p with
  | error e => simp
  | ok s =>
    constructor
    · intro h
      exact ⟨s.1, s.2, rfl, h⟩
    · rintro ⟨a, q, he, h⟩
      obtain rfl := Except.ok.inj he
      exact h

lemma pure_ok {a : α} {p : Parser} {r : α × Parser} : (pure a : Parse α) p = .ok r ↔
    (a, p) = r := by
  change Except.ok (a, p) = .ok r ↔ _
  simp

@[simp] lemma fail_ok {e : DnsError} {p : Parser} {r : α × Parser} : fail e p = .ok r ↔ False := by
  simp [fail]

lemma Moved.trans {j k : ℕ} {p q r : Parser} (h : Moved j p q) (g : Moved k q r) :
    Moved (j + k) p r where
  wire := g.wire.trans h.wire
  stop := g.stop.trans h.stop
  current := by have := h.current; have := g.current; omega
  furthest := h.furthest.trans g.furthest

lemma Moved.mono {j k : ℕ} {p q : Parser} (h : Moved j p q) (hk : k ≤ j) : Moved k p q :=
  { h with current := (Nat.add_le_add_left hk _).trans h.current }

lemma getBytes_ok {n : ℕ} {p q : Parser} {bs : Octets} (h : getBytes n p = .ok (bs, q)) :
    n ≤ p.remaining ∧ bs = (p.wire.drop p.current).take n ∧
      q = { p with current := p.current + n, furthest := max p.furthest (p.current + n) } := by
  unfold getBytes at h
  split at h
  · simp at h
  · simp only [Except.ok.injEq, Prod.mk.injEq] at h
    exact ⟨by omega, h.1.symm, h.2.symm⟩

def Advances (k : ℕ) (x : Parse α) : Prop := ∀ ⦃p q a⦄, x p = .ok (a, q) → Moved k p q

lemma Advances.bind {j k : ℕ} {x : Parse α} {f : α → Parse β} (hx : Advances j x)
    (hf : ∀ a, Advances k (f a)) : Advances (j + k) (x >>= f) := by
  intro p q b h
  obtain ⟨a, r, hr, hb⟩ := bind_ok.mp h
  exact (hx hr).trans (hf a hb)

lemma Advances.mono {j k : ℕ} {x : Parse α} (hx : Advances j x) (hk : k ≤ j) : Advances k x :=
  fun _ _ _ h => (hx h).mono hk

lemma advances_pure (a : α) : Advances 0 (pure a : Parse α) := by
  intro p q b h
  obtain ⟨-, rfl⟩ := Prod.mk.inj (pure_ok.mp h)
  exact ⟨rfl, rfl, le_rfl, le_rfl⟩

lemma advances_fail (k : ℕ) (e : DnsError) : Advances k (fail e : Parse α) := by
  intro p q b h
  exact (fail_ok.mp h).elim

lemma advances_get : Advances 0 (get : Parse Parser) := by
  intro p q b h
  obtain ⟨-, rfl⟩ := Prod.mk.inj (Except.ok.inj h)
  exact ⟨rfl, rfl, le_rfl, le_rfl⟩

lemma advances_ite {k : ℕ} {c : Prop} [Decidable c] {x y : Parse α} (hx : Advances k x)
    (hy : Advances k y) : Advances k (if c then x else y) := by
  split <;> assumption

lemma advances_getBytes (n : ℕ) : Advances n (getBytes n) := by
  intro p q bs h
  obtain ⟨-, -, rfl⟩ := getBytes_ok h
  exact ⟨rfl, rfl, le_rfl, le_max_left _ _⟩

lemma getUint_ok {w v : ℕ} {p q : Parser} (h : getUint w p = .ok (v, q)) :
    v = decode ((p.wire.drop p.current).take w) ∧
      getBytes w p = .ok ((p.wire.drop p.current).take w, q) := by
  obtain ⟨bs, q', hb, hp⟩ := bind_ok.mp h
  obtain ⟨rfl, rfl⟩ := Prod.mk.inj (pure_ok.mp hp)
  obtain ⟨-, rfl, -⟩ := getBytes_ok hb
  exact ⟨rfl, hb⟩

lemma getUint_at {w v : ℕ} {p q : Parser} (h : getUint w p = .ok (v, q)) :
    v = decode ((p.wire.drop p.current).take w) ∧ q.wire = p.wire ∧ q.current = p.current + w ∧
      q.stop = p.stop := by
  obtain ⟨rfl, hb⟩ := getUint_ok h
  obtain ⟨-, -, rfl⟩ := getBytes_ok hb
  exact ⟨rfl, rfl, rfl, rfl⟩

lemma advances_getUint (w : ℕ) : Advances w (getUint w) :=
  (advances_getBytes w).bind (fun _ => advances_pure _)

lemma advances_getCountedBytes (w : ℕ) : Advances w (getCountedBytes w) :=
  (advances_getUint w).bind (fun n => (advances_getBytes n).mono (Nat.zero_le n))

lemma getCountedBytes_lt {w : ℕ} {p q : Parser} {bs : Octets}
    (h : getCountedBytes w p = .ok (bs, q)) : bs.length < 256 ^ w := by
  obtain ⟨n, p₁, hn, hb⟩ := bind_ok.mp h
  obtain ⟨rfl, hw⟩ := getUint_ok hn
  obtain ⟨-, rfl, -⟩ := getBytes_ok hb
  have hd := decode_lt ((p.wire.drop p.current).take w)
  have hl : 256 ^ ((p.wire.drop p.current).take w).length ≤ 256 ^ w :=
    Nat.pow_le_pow_right (by omega) (List.length_take_le _ _)
  rw [List.length_take]
  omega

lemma getLabels_kept {fuel biggest : ℕ} {labels ls : List Label} {p q : Parser}
    (h : getLabels fuel biggest labels p = .ok (ls, q)) :
    q.wire = p.wire ∧ q.stop = p.stop ∧ p.furthest ≤ q.furthest ∧ p.current + 1 ≤ q.furthest := by
  induction fuel generalizing biggest labels p with
  | zero => simp [getLabels] at h
  | succ fuel ih =>
    obtain ⟨count, q₁, h₁, h⟩ := bind_ok.mp h
    have hm := advances_getUint 1 h₁
    have hf : p.current + 1 ≤ q₁.furthest := by
      obtain ⟨-, -, rfl⟩ := getBytes_ok (getUint_ok h₁).2
      exact le_max_right _ _
    split at h
    · obtain ⟨-, rfl⟩ := Prod.mk.inj (pure_ok.mp h)
      exact ⟨hm.wire, hm.stop, hm.furthest, hf⟩
    · split at h
      · obtain ⟨l, q₂, h₂, h⟩ := bind_ok.mp h
        have hm₂ := advances_getBytes _ h₂
        obtain ⟨hw, hs, hu, -⟩ := ih h
        exact ⟨hw.trans (hm₂.wire.trans hm.wire), hs.trans (hm₂.stop.trans hm.stop),
          hm.furthest.trans (hm₂.furthest.trans hu), hf.trans (hm₂.furthest.trans hu)⟩
      · split at h
        · obtain ⟨low, q₂, h₂, h⟩ := bind_ok.mp h
          have hm₂ := advances_getUint 1 h₂
          split at h
          · simp at h
          · obtain ⟨_, q₃, h₃, h⟩ := bind_ok.mp h
            have hq : q₃.wire = q₂.wire ∧ q₃.stop = q₂.stop ∧ q₃.furthest = q₂.furthest := by
              unfold seek at h₃
              split at h₃
              · simp at h₃
              · simp only [Except.ok.injEq, Prod.mk.injEq] at h₃
                obtain ⟨-, rfl⟩ := h₃
                exact ⟨rfl, rfl, rfl⟩
            obtain ⟨hw, hs, hu, -⟩ := ih h
            rw [hq.2.2] at hu
            exact ⟨hw.trans (hq.1.trans (hm₂.wire.trans hm.wire)),
              hs.trans (hq.2.1.trans (hm₂.stop.trans hm.stop)),
              hm.furthest.trans (hm₂.furthest.trans hu), hf.trans (hm₂.furthest.trans hu)⟩
        · simp at h

lemma advances_getName : Advances 1 getName := by
  intro p q n h
  obtain ⟨ls, q₁, h₁, h⟩ := bind_ok.mp h
  obtain ⟨_, q₂, h₂, h⟩ := bind_ok.mp h
  obtain ⟨hw, hs, hf, hc⟩ := getLabels_kept h₁
  have hq₂ : q₂ = { q₁ with current := q₁.furthest } := (Prod.mk.inj (Except.ok.inj h₂)).2.symm
  have hq : q = q₂ := by
    unfold liftName at h
    split at h
    · exact (Prod.mk.inj (Except.ok.inj h)).2.symm
    · simp at h
  subst hq hq₂
  exact ⟨hw, hs, hc, hf⟩

lemma getName_inside {n : Name} {p q : Parser} (h : getName p = .ok (n, q)) :
    p.current < p.stop := by
  obtain ⟨ls, q₁, h₁, -⟩ := bind_ok.mp h
  obtain ⟨count, q₂, h₂, -⟩ := bind_ok.mp h₁
  obtain ⟨hr, -⟩ := getBytes_ok (getUint_ok h₂).2
  unfold remaining at hr
  omega

lemma restrictTo_ok {size : ℕ} {body : Parse α} {p q : Parser} {a : α}
    (h : restrictTo size body p = .ok (a, q)) :
    ∃ r, body { p with stop := p.current + size } = .ok (a, r) ∧ r.current = r.stop ∧
      q = { r with stop := p.stop } := by
  unfold restrictTo at h
  split at h
  · simp at h
  · split at h
    · simp at h
    · next a' r hr =>
      split at h
      · simp at h
      · next hc =>
        obtain ⟨rfl, rfl⟩ := Prod.mk.inj (Except.ok.inj h)
        exact ⟨r, hr, not_not.mp hc, rfl⟩

lemma advances_restrictTo {k : ℕ} {body : Parse α} (size : ℕ) (hb : Advances k body) :
    Advances size (restrictTo size body) := by
  intro p q a h
  obtain ⟨r, hr, hc, rfl⟩ := restrictTo_ok h
  have hm := hb hr
  exact ⟨hm.wire, rfl, by rw [hc, hm.stop], hm.furthest⟩

end Progress

section Fields

variable {α β : Type} {e : DnsError} {p q : Parser}

lemma bind_eq_of_ok {x : Parse α} {a : α} (h : x p = .ok (a, q)) (f : α → Parse β) :
    (x >>= f) p = f a q := by
  simp only [bind, StateT.bind, Except.bind, h]

lemma bind_error {x : Parse α} {f : α → Parse β} (h : (x >>= f) p = .error e) :
    x p = .error e ∨ ∃ a q, x p = .ok (a, q) ∧ f a q = .error e := by
  cases hx : x p with
  | error e' =>
    left
    simp only [bind, StateT.bind, Except.bind, hx] at h
    rw [Except.error.inj h]
  | ok s =>
    right
    rw [bind_eq_of_ok hx] at h
    exact ⟨s.1, s.2, rfl, h⟩

structure Header where
  id : ℕ
  flags : ℕ
  qd : ℕ
  an : ℕ
  ns : ℕ
  ar : ℕ

def header : Parse Header := do
  let id ← getUint 2
  let flags ← getUint 2
  let qd ← getUint 2
  let an ← getUint 2
  let ns ← getUint 2
  let ar ← getUint 2
  return ⟨id, flags, qd, an, ns, ar⟩

abbrev withHeader (f : ℕ → ℕ → ℕ → ℕ → ℕ → ℕ → Parse α) : Parse α := do
  let id ← getUint 2
  let flags ← getUint 2
  let qd ← getUint 2
  let an ← getUint 2
  let ns ← getUint 2
  let ar ← getUint 2
  f id flags qd an ns ar

lemma withHeader_eq (f : ℕ → ℕ → ℕ → ℕ → ℕ → ℕ → Parse α) :
    withHeader f = header >>= fun h => f h.id h.flags h.qd h.an h.ns h.ar := by
  simp only [withHeader, header, bind_assoc, pure_bind]

lemma withHeader_ok {f : ℕ → ℕ → ℕ → ℕ → ℕ → ℕ → Parse α} {a : α × Parser}
    (h : withHeader f p = .ok a) :
    ∃ r q, header p = .ok (r, q) ∧ f r.id r.flags r.qd r.an r.ns r.ar q = .ok a :=
  bind_ok.mp ((congrFun (withHeader_eq f) p).symm.trans h)

lemma withHeader_of_ok {r : Header} (h : header p = .ok (r, q)) (f : ℕ → ℕ → ℕ → ℕ → ℕ → ℕ →
      Parse α) : withHeader f p = f r.id r.flags r.qd r.an r.ns r.ar q := by
  rw [withHeader_eq, bind_eq_of_ok h]

structure RecordFields where
  name : Name
  rdtype : ℕ
  rdclass : ℕ
  ttl : ℕ
  rdlen : ℕ

def recordFields : Parse RecordFields := do
  let name ← getName
  let rdtype ← getUint 2
  let rdclass ← getUint 2
  let ttl ← getUint 4
  let rdlen ← getUint 2
  return ⟨name, rdtype, rdclass, ttl, rdlen⟩

abbrev withFields (f : Name → ℕ → ℕ → ℕ → ℕ → Parse α) : Parse α := do
  let name ← getName
  let rdtype ← getUint 2
  let rdclass ← getUint 2
  let ttl ← getUint 4
  let rdlen ← getUint 2
  f name rdtype rdclass ttl rdlen

lemma withFields_eq (f : Name → ℕ → ℕ → ℕ → ℕ → Parse α) :
    withFields f = recordFields >>= fun r => f r.name r.rdtype r.rdclass r.ttl r.rdlen := by
  simp only [withFields, recordFields, bind_assoc, pure_bind]

lemma withFields_ok {f : Name → ℕ → ℕ → ℕ → ℕ → Parse α} {a : α × Parser}
    (h : withFields f p = .ok a) :
    ∃ r q, recordFields p = .ok (r, q) ∧ f r.name r.rdtype r.rdclass r.ttl r.rdlen q = .ok a :=
  bind_ok.mp ((congrFun (withFields_eq f) p).symm.trans h)

lemma withFields_of_ok {r : RecordFields} (h : recordFields p = .ok (r, q)) (f : Name → ℕ → ℕ → ℕ →
      ℕ → Parse α) : withFields f p = f r.name r.rdtype r.rdclass r.ttl r.rdlen q := by
  rw [withFields_eq, bind_eq_of_ok h]

lemma advances_recordFields : Advances 11 recordFields := by
  have h : Advances (1 + (2 + (2 + (4 + (2 + 0))))) recordFields :=
    advances_getName.bind fun _ => (advances_getUint 2).bind fun _ =>
      (advances_getUint 2).bind fun _ =>
      (advances_getUint 4).bind fun _ => (advances_getUint 2).bind fun _ => advances_pure _
  exact h

lemma recordFields_inside {r : RecordFields} (h : recordFields p = .ok (r, q)) :
    p.current < p.stop := by
  obtain ⟨name, p₁, h₁, -⟩ := bind_ok.mp h
  exact getName_inside h₁

end Fields

end Parser

end AstropathRelay.Dns
