import AstropathRelay.DataPlane.ProviderCalls
import AstropathRelay.DataPlane.WriteSurface
import AstropathRelay.Lib.LateWrites

/-! Concurrent dispatches to Hurricane providers: a dynamic record holds one value, a call posts it
up to three times, and a post that nobody waits for any more may still be taken. -/

namespace AstropathRelay.DataPlane.DynamicRecords

open Lib Lib.Results Dns Providers Route53 Cache

def LowersAscii (E : Platform) : Prop :=
  ∀ text, Name.isAscii text = true → E.lower text = String.ofList (text.toList.map Char.toLower)

section Hostnames

variable {E : Platform}

lemma normalizeRecord_toText (hE : LowersAscii E) (n : Name) :
    normalizeName n.toText = String.ofList ((normalizeRecord E n.toText).toList ++ ['.']) := by
  have hascii := Name.isAscii_textOf (Name.toTextOctets_ascii n)
  have hdrop : Name.isAscii (String.ofList (n.toText.toList.rdropWhile (· = '.'))) = true := by
    rw [Name.isAscii, String.toList_ofList, List.all_eq_true]
    intro c hc
    exact List.all_eq_true.mp hascii c ((List.rdropWhile_prefix _ _).subset hc)
  rw [normalizeRecord, hE _ hdrop, String.toList_ofList, String.toList_ofList]
  rfl

lemma beq_of_hostname (hE : LowersAscii E) {m n : Name}
    (h : normalizeRecord E m.toText = normalizeRecord E n.toText) : m == n := by
  apply normalizeName_toText_inj.mp
  rw [normalizeRecord_toText hE, normalizeRecord_toText hE, h]

end Hostnames

structure Push where
  routing : RoutingTable Provider
  msg : Message
  plan : Plan Provider
  config : HurricaneConfig
  planned : DataPlane.plan (fun p : Provider => p.config.type) routing msg = some plan
  hurricane : plan.call.provider.config = .hurricane config

namespace Push

variable (E : Platform) (j : Push)

def hostname : String := normalizeRecord E j.plan.call.recordName

def txt : String :=
  match j.plan.call.action with
  | .present => j.plan.call.values.headD ""
  | .cleanup => j.config.cleanupPlaceholder

def form : Except Failure Form :=
  formFor E j.plan.call.provider.recordKeys j.plan.call.recordName j.txt

def again (answers : List Response) : Bool :=
  (j.form E).toOption.isSome &&
    match answers.getLast? with
    | none => true
    | some (.http status _) => decide (status ∈ retryableStatus ∧ answers.length < maxAttempts)
    | some _ => false

def called (answers : List Response) (client : Client) : Except Failure Written :=
  callProvider E j.plan.call.provider ⟨client, fun n => answers.getD n .raised⟩ j.plan.call.action
    j.plan.call.recordName j.plan.call.values

variable {E j}

lemma owner : ∃ n : Name, j.plan.lockKey = n.canonicalize.toText ∧
    j.plan.call.recordName = n.toText := by
  obtain ⟨route, rrset, -, hp⟩ := plan_eq_some.mp j.planned
  exact ⟨rrset.name, by rw [hp], by rw [hp]; rfl⟩

lemma lockKey_of_hostname (hE : LowersAscii E) {i j : Push} (h : i.hostname E = j.hostname E) :
    i.plan.lockKey = j.plan.lockKey := by
  obtain ⟨m, hm, hm'⟩ := i.owner
  obtain ⟨n, hn, hn'⟩ := j.owner
  rw [hostname, hostname, hm', hn'] at h
  rw [hm, hn, Name.beq_iff.mp (beq_of_hostname hE h)]

lemma present_values (h : j.plan.call.action = .present) : ∃ v, j.plan.call.values = [v] := by
  obtain ⟨route, rrset, hc, hp⟩ := plan_eq_some.mp j.planned
  have hh := j.hurricane
  rw [hp] at h hh ⊢
  change actionOf rrset = .present at h
  change route.provider.config = .hurricane j.config at hh
  have hmost : rrset.rdatas.length ≤ 1 := by
    have hm := hc.atMostOne
    rw [hh] at hm
    exact hm.resolve_right (by simp [ProviderConfig.type, ProviderType.supportsMultivalue])
  have hleast : rrset.rdatas ≠ [] := hc.atLeastOne.resolve_right (by rw [h]; simp)
  obtain ⟨rd, hrd⟩ := List.length_eq_one_iff.mp (show rrset.rdatas.length = 1 by
    have := List.length_pos_iff.mpr hleast
    omega)
  exact ⟨joined rd, by simp [callOf, tokens, hrd]⟩

lemma called_eq (answers : List Response) (client : Client) :
    j.called E answers client = (do
      let form ← j.form E
      readResponse E form (j.plan.call.action = .cleanup)
        (postWithRetry (fun n => answers.getD n .raised) 0 (maxAttempts - 1))) := by
  unfold called callProvider
  rw [j.hurricane]
  cases ha : j.plan.call.action with
  | cleanup => simp [form, txt, ha, update]
  | present =>
    obtain ⟨v, hv⟩ := present_values ha
    simp [form, txt, ha, hv, update]

def Retried (r : Response) : Prop := ∃ status text, r = .http status text ∧ status ∈ retryableStatus

lemma again_concat (hf : (j.form E).toOption.isSome = true) (l : List Response) (r : Response) :
    j.again E (l ++ [r]) = true ↔ Retried r ∧ (l ++ [r]).length < maxAttempts := by
  rw [again, hf, Bool.true_and, List.getLast?_concat]
  cases r <;> simp [Retried]

lemma postWithRetry_skip {f : ℕ → Response} {k a : ℕ} (h : ∀ n < k, Retried (f (a + n)))
    (left : ℕ) : postWithRetry f a (k + left) = postWithRetry f (a + k) left := by
  induction k generalizing a with
  | zero => rw [Nat.zero_add, Nat.add_zero]
  | succ k ih =>
    obtain ⟨status, text, hr, hs⟩ := h 0 (by omega)
    rw [Nat.add_right_comm, postWithRetry, show f a = .http status text from hr]
    dsimp only
    have hnext : ∀ n < k, Retried (f (a + 1 + n)) := fun n hn => by
      rw [Nat.add_assoc, Nat.add_comm 1 n]
      exact h (n + 1) (by omega)
    rw [if_pos hs, ih hnext, Nat.add_assoc, Nat.add_comm 1 k]

lemma postWithRetry_last {f : ℕ → Response} {a left : ℕ} (h : Retried (f a) → left = 0) :
    postWithRetry f a left = f a := by
  cases left with
  | zero => rfl
  | succ left =>
    have hn : ¬ Retried (f a) := fun hr => absurd (h hr) (by omega)
    rw [postWithRetry]
    split
    · next status text hr =>
      rw [if_neg (fun hs => hn ⟨status, text, hr, hs⟩), hr]
    · rfl

lemma retried_of_again (hf : (j.form E).toOption.isSome = true) {answers : List Response}
    (hp : ∀ l r rest, answers = l ++ r :: rest → j.again E l = true) {n : ℕ}
    (hn : n + 1 < answers.length) : Retried (answers.getD n .raised) ∧ n + 1 < maxAttempts := by
  have hlt : n < answers.length := by omega
  have htake : answers.take (n + 1) = answers.take n ++ [answers[n]] :=
    List.take_succ_eq_append_getElem hlt
  have hsplit : answers = answers.take (n + 1) ++ answers[n + 1] :: answers.drop (n + 2) := by
    rw [← List.drop_eq_getElem_cons hn, List.take_append_drop]
  have ha := hp _ _ _ hsplit
  rw [htake, again_concat hf] at ha
  have hg : answers.getD n .raised = answers[n] := by simp [hlt]
  refine ⟨hg ▸ ha.1, ?_⟩
  have hl := ha.2
  rwa [← htake, List.length_take, Nat.min_eq_left (by omega)] at hl

lemma returned_last {answers : List Response} (hf : (j.form E).toOption.isSome = true)
    (hp : ∀ l r rest, answers = l ++ r :: rest → j.again E l = true)
    (ha : j.again E answers = false) :
    postWithRetry (fun n => answers.getD n .raised) 0 (maxAttempts - 1) ∈ answers := by
  rcases List.eq_nil_or_concat' answers with rfl | ⟨l, r, rfl⟩
  · simp [again, hf] at ha
  · have hlast : Retried r → ¬ l.length + 1 < maxAttempts := fun hr hlt => by
      rw [(again_concat hf l r).mpr ⟨hr, by simpa using hlt⟩] at ha
      cases ha
    have hlen : l.length ≤ maxAttempts - 1 := by
      cases hl : l.length with
      | zero => omega
      | succ n =>
        have hh := (retried_of_again hf hp (n := n) (by simp [hl])).2
        omega
    have hskip := postWithRetry_skip (f := fun n =>
      (l ++ [r]).getD n .raised) (k := l.length) (a := 0) (fun n hn => by
        rw [Nat.zero_add]
        exact (retried_of_again hf hp (by simpa using hn)).1) (maxAttempts - 1 - l.length)
    rw [Nat.add_sub_cancel' hlen, Nat.zero_add] at hskip
    have hr : (l ++ [r]).getD l.length .raised = r := by simp
    rw [hskip, postWithRetry_last (by rw [hr]; intro h; have := hlast h; omega), hr]
    simp

end Push

def vouches (E : Platform) : Response → Bool
  | .http status text => status = 200 ∧ statusOf E text ∈ okResponses
  | _ => false

section Records

variable {E : Platform} {ι : Type}

def senders (hE : LowersAscii E) (pushes : ι → Push) : Sender ι String String String Response where
  key i := (pushes i).plan.lockKey
  cell i := (pushes i).hostname E
  value i := (pushes i).txt
  again i := (pushes i).again E
  vouches := vouches E
  guarded _ _ h := Push.lockKey_of_hostname hE h

lemma readResponse_txt {form : Form} {cleanup : Bool} {r : Response} {v : String}
    (h : readResponse E form cleanup r = .ok (.txt v)) : vouches E r = true ∧ form.txt = v := by
  unfold readResponse at h
  split at h
  · cases h
  · cases h
  · next code text =>
    dsimp only at h
    split_ifs at h with hc hs
    · exact ⟨by simp [vouches, not_not.mp hc, hs], by simpa using h⟩
    · cases h

variable {hE : LowersAscii E} {pushes : ι → Push}

lemma called_vouched {s : Sender.State ι String String String Response} {i : ι}
    (ht : (senders hE pushes).Told s)
    (hover : (pushes i).again E (s.phase i).answers = false) {client : Client} {v : String}
    (hc : (pushes i).called E (s.phase i).answers client = .ok (.txt v)) :
    v = (pushes i).txt ∧ ∃ r ∈ (s.phase i).answers, vouches E r = true := by
  rw [Push.called_eq] at hc
  obtain ⟨form, hf, hc⟩ := bind_ok.mp hc
  obtain ⟨hv, rfl⟩ := readResponse_txt hc
  refine ⟨?_, _, Push.returned_last (by rw [hf]; rfl) (ht.again i) hover, hv⟩
  rw [Push.form, formFor] at hf
  split at hf
  · cases hf
  · rw [← Except.ok.inj hf]

variable [DecidableEq ι]

/-- Whatever the interleaving, the delays and the losses, a record holds what it held first or what
one of its own calls posted; and what a call returned for stands until a post of an earlier call
comes late, or until the call gave its lock up and a later one posts. -/
theorem posted_value_stands (store : String → String) {es : List (Sender.Event ι Response)}
    {s : Sender.State ι String String String Response}
    (h : ((senders hE pushes).system store).Run es s) :
    (∀ hostname, s.store hostname = store hostname ∨
      ∃ i, (pushes i).hostname E = hostname ∧ .landed i ∈ s.history ∧
        s.store hostname = (pushes i).txt) ∧
    ∀ i client v, (pushes i).again E (s.phase i).answers = false →
      (pushes i).called E (s.phase i).answers client = .ok (.txt v) →
      s.store ((pushes i).hostname E) = v ∨
      ∃ j, j ≠ i ∧ (pushes j).hostname E = (pushes i).hostname E ∧ .landed j ∈ s.after i ∧
        (.acquired j ∉ s.after i ∨ ¬ (s.phase i).Active) := by
  have hinv := Sender.inv_of_run h
  refine ⟨hinv.carried, fun i client v hover hc => ?_⟩
  obtain ⟨rfl, r, hr, hv⟩ := called_vouched hinv.told hover hc
  exact Sender.vouched_stands h hr hv

def samplePlatform : Platform :=
  ⟨fun _ => .error .idna, fun text => String.ofList (text.toList.map Char.toLower)⟩

lemma samplePlatform_lowers : LowersAscii samplePlatform := fun _ _ => rfl

def sampleProvider : Provider :=
  ⟨.hurricane ⟨"acme-challenge-cleared"⟩, Dict.ofList [("_acme-challenge.z", "dynamic-key")]⟩

def samplePush (b : Bool) : Push where
  routing := RoutingTable.ofRoutes [⟨sampleZone, sampleProvider, sampleRecord⟩]
  msg := { chaosUpdate with
    authority :=
      [⟨sampleRecord, RdClass.internet, RdType.txt, none, [.txt [[if b then 121 else 120]]]⟩] }
  plan := ⟨⟨sampleZone, sampleProvider, sampleRecord⟩, ⟨sampleProvider, .present, "z.",
    "_acme-challenge.z.", [if b then "y" else "x"]⟩, "_acme-challenge.z."⟩
  config := ⟨"acme-challenge-cleared"⟩
  planned := by cases b <;> decide +kernel
  hurricane := rfl

def closedClient : Client :=
  ⟨false, false, fun _ => .raised, fun _ _ => .raised, fun _ _ => .raised⟩

def sampleAnswers : List Response := [.http 503 "", .http 200 "good"]

abbrev sampleSenders := senders samplePlatform_lowers samplePush

lemma sample_again (b : Bool) :
    sampleSenders.again b [] = true ∧ sampleSenders.again b [.http 503 ""] = true ∧
      (samplePush b).again samplePlatform sampleAnswers = false := by
  cases b <;> decide +kernel

lemma sample_hostname (b : Bool) :
    (samplePush b).hostname samplePlatform = "_acme-challenge.z" := by
  cases b <;> decide +kernel

lemma sample_called :
    (samplePush true).called samplePlatform sampleAnswers closedClient = .ok (.txt "y") := by
  decide +kernel

-- The first call is cancelled while its post is on its way. The second has its own post answered
-- with 503 at first, and taken when it posts again; the post of the first comes behind it.
def lateEvents : List (Sender.Event Bool Response) :=
  [.acquire false, .ask false, .release false, .acquire true, .ask true, .answer true
    (.http 503 ""), .ask true, .land true 1, .answer true (.http 200 "good"), .land false 0]

lemma late_run : ∃ s, (sampleSenders.system (fun _ => "")).Run lateEvents s ∧
    s.phase true = .holding sampleAnswers false ∧ s.store "_acme-challenge.z" = "x" := by
  have h₀ : (sampleSenders.system (fun _ => "")).Run [] (Sender.start (fun _ => "")) := .init rfl
  have h₁ := h₀.step (Sender.Step.acquire (i := false) rfl rfl)
  have h₂ := h₁.step (Sender.Step.ask (i := false) rfl (sample_again false).1)
  have h₃ := h₂.step (Sender.Step.release (i := false) rfl)
  have h₄ := h₃.step (Sender.Step.acquire (i := true) rfl (by decide +kernel))
  have h₅ := h₄.step (Sender.Step.ask (i := true) rfl (sample_again true).1)
  have h₆ :=
    h₅.step (Sender.Step.answer (i := true) (r := .http 503 "") rfl (fun hv => by cases hv))
  have h₇ := h₆.step (Sender.Step.ask (i := true) rfl (sample_again true).2.1)
  have h₈ := h₇.step
    (Sender.Step.land (i := true) (n := 1) (by decide) (by simp [Sender.moved, Sender.start]))
  have h₉ := h₈.step (Sender.Step.answer (i := true) (r := .http 200 "good") rfl (fun _ => by simp))
  have h₁₀ := h₉.step
    (Sender.Step.land (i := false) (n := 0) (by decide) (by simp [Sender.moved, Sender.start]))
  refine ⟨_, h₁₀, rfl, ?_⟩
  have hcell : sampleSenders.cell false = "_acme-challenge.z" := sample_hostname false
  simp only [hcell, Function.update_self]
  rfl

theorem sample_value_overtaken : ∃ s, (sampleSenders.system (fun _ => "")).Run lateEvents s ∧
    (samplePush true).called samplePlatform (s.phase true).answers closedClient = .ok (.txt "y") ∧
    s.store "_acme-challenge.z" = "x" ∧ .landed false ∈ s.after true ∧
    .acquired false ∉ s.after true := by
  obtain ⟨s, h, hp, hx⟩ := late_run
  have hc : (samplePush true).called samplePlatform (s.phase true).answers closedClient =
      .ok (.txt "y") := by
    rw [hp]
    exact sample_called
  have hover : (samplePush true).again samplePlatform (s.phase true).answers = false := by
    rw [hp]
    exact (sample_again true).2.2
  obtain hs | ⟨j, hj, -, hlanded, hacquired⟩ :=
    (posted_value_stands _ h).2 true closedClient "y" hover hc
  · rw [sample_hostname, hx] at hs
    exact absurd hs (by decide)
  · obtain rfl : j = false := by simpa using hj
    exact ⟨s, h, hc, hx, hlanded, hacquired.resolve_right (by simp [hp, Sender.Phase.Active])⟩

/-- Where no post is taken after its call gave the lock up, the record holds what the last call that
posted it, in the order of the locks, had posted, and what a call returned for stands until the next
call on the record begins. -/
theorem prompt_posts_serialized (store : String → String) {es : List (Sender.Event ι Response)}
    {s : Sender.State ι String String String Response}
    (h : (((senders hE pushes).system store).restrict Sender.Prompt).Run es s) :
    (∀ hostname, s.store hostname =
      ((senders hE pushes).turns s hostname).getLast?.elim (store hostname)
        (fun i => (pushes i).txt)) ∧
    ∀ i client v, (pushes i).again E (s.phase i).answers = false →
      (pushes i).called E (s.phase i).answers client = .ok (.txt v) →
      (∀ j, .acquired j ∈ s.after i → (pushes j).hostname E ≠ (pushes i).hostname E) →
      s.store ((pushes i).hostname E) = v := by
  refine ⟨Sender.prompt_serialized h, fun i client v hover hc hn => ?_⟩
  obtain ⟨rfl, r, hr, hv⟩ := called_vouched (Sender.inv_of_run h.of_restrict).told hover hc
  exact Sender.prompt_stands h hr hv hn

def promptEvents : List (Sender.Event Bool Response) :=
  [.acquire false, .ask false, .land false 0, .release false, .acquire true, .ask true,
    .answer true (.http 503 ""), .ask true, .land true 1, .answer true (.http 200 "good")]

lemma prompt_run :
    ∃ s, ((sampleSenders.system (fun _ => "")).restrict Sender.Prompt).Run promptEvents s ∧
      s.phase true = .holding sampleAnswers false ∧ s.after true = [.landed true] := by
  have h₀ : ((sampleSenders.system (fun _ => "")).restrict Sender.Prompt).Run []
      (Sender.start (fun _ => "")) :=
    .init rfl
  have h₁ := h₀.step (e := Sender.Event.acquire false) ⟨trivial, Sender.Step.acquire rfl rfl⟩
  have h₂ :=
    h₁.step (e := Sender.Event.ask false) ⟨trivial, Sender.Step.ask rfl (sample_again false).1⟩
  have h₃ := h₂.step (e := Sender.Event.land false 0)
    ⟨trivial, Sender.Step.land (by decide) (by simp [Sender.moved, Sender.start])⟩
  have h₄ := h₃.step (e := Sender.Event.release false) ⟨trivial, Sender.Step.release rfl⟩
  have h₅ :=
    h₄.step (e := Sender.Event.acquire true) ⟨trivial, Sender.Step.acquire rfl (by decide +kernel)⟩
  have h₆ :=
    h₅.step (e := Sender.Event.ask true) ⟨trivial, Sender.Step.ask rfl (sample_again true).1⟩
  have h₇ := h₆.step (e := Sender.Event.answer true (.http 503 "")) ⟨trivial,
    Sender.Step.answer rfl (fun hv => by cases hv)⟩
  have h₈ :=
    h₇.step (e := Sender.Event.ask true) ⟨trivial, Sender.Step.ask rfl (sample_again true).2.1⟩
  have h₉ := h₈.step (e := Sender.Event.land true 1)
    ⟨trivial, Sender.Step.land (by decide) (by simp [Sender.moved, Sender.start])⟩
  have h₁₀ := h₉.step (e := Sender.Event.answer true (.http 200 "good")) ⟨trivial,
    Sender.Step.answer rfl (fun _ => by simp)⟩
  exact ⟨_, h₁₀, rfl, rfl⟩

theorem sample_posts_serialized :
    ∃ s, ((sampleSenders.system (fun _ => "")).restrict Sender.Prompt).Run promptEvents s ∧
      s.store "_acme-challenge.z" = "y" := by
  obtain ⟨s, h, hp, ha⟩ := prompt_run
  have hc : (samplePush true).called samplePlatform (s.phase true).answers closedClient =
      .ok (.txt "y") := by
    rw [hp]
    exact sample_called
  have hover : (samplePush true).again samplePlatform (s.phase true).answers = false := by
    rw [hp]
    exact (sample_again true).2.2
  have hs := (prompt_posts_serialized _ h).2 true closedClient "y" hover hc (fun _ hj => by
    rw [ha] at hj
    exact absurd hj (by simp))
  exact ⟨s, h, sample_hostname true ▸ hs⟩

end Records

end AstropathRelay.DataPlane.DynamicRecords
