import AstropathRelay.Lib.Borders
import AstropathRelay.Logging.Scrub

/-! The password of a DSN does not show in the scrubbed text, whatever stands around the DSN. -/

namespace AstropathRelay.Logging

open Lib Lib.Regex

def isUserChar : Char → Bool := noneOf [':', '/', '@']

def isPasswordChar : Char → Bool := noneOf ['@', '/']

structure DsnAt (text user password rest : List Char) : Prop where
  text_eq : text = ':' :: '/' :: '/' :: (user ++ ':' :: (password ++ '@' :: rest))
  user_ne : user ≠ []
  user_all : ∀ a ∈ user, isUserChar a
  password_ne : password ≠ []
  password_all : ∀ a ∈ password, isPasswordChar a

def masked (user : List Char) : List Char :=
  ':' :: '/' :: '/' :: (user ++ ':' :: (redacted.toList ++ ['@']))

section Match

variable {before text user password rest : List Char} {c : Cursor Char}

lemma dsnAt_of_run (h : c ∈ dsnPattern.regex.run ⟨before, text, []⟩) : ∃ user password,
    DsnAt text user password c.rest ∧ dsnPattern.expand c.groups = masked user := by
  simp only [dsnPattern, mem_run_seqs_cons, mem_run_seqs_nil, mem_run_group, mem_run_literal,
    mem_run_many, mem_run_one] at h
  obtain ⟨c₁, ⟨d₁, ⟨e₁, hscheme, e₂, ⟨user, huser, hu, -, hd₂⟩, e₃, ⟨a, ha, hd₃⟩, rfl⟩, rfl⟩,
    c₂, ⟨password, hpassword, hp, -, hd₄⟩, c₃, ⟨d₂, ⟨b, hb, hd₅⟩, rfl⟩, rfl⟩ := h
  obtain rfl : a = ':' := by simpa using ha
  obtain rfl : b = '@' := by simpa using hb
  have hpre := (hscheme.trans hd₂).trans hd₃
  rw [capture_of_eats hpre.toEats] at hd₄
  rw [capture_of_eats hd₅.toEats]
  refine ⟨user, password, ⟨?_, ?_, huser, ?_, hpassword⟩, ?_⟩
  · have htext : text = _ := hpre.rest
    have hrest : d₁.rest = _ := hd₄.rest
    rw [htext, hrest, hd₅.rest]
    simp
  · exact List.ne_nil_of_length_pos hu
  · exact List.ne_nil_of_length_pos hp
  · rw [hd₅.groups, hd₄.groups]
    simp [dsnPattern, Pattern.expand, Pattern.expandPiece, masked, List.lookup_cons]

lemma matchAt_of_dsnAt (h : DsnAt text user password rest) (before : List Char) :
    ∃ c, dsnPattern.matchAt before text = some c := by
  obtain ⟨c₁, h₁, hr₁⟩ : ∃ d, Cursor.Takes ⟨before, text, []⟩ "://".toList d ∧
      d.rest = user ++ ':' :: (password ++ '@' :: rest) := Cursor.exists_takes h.text_eq
  obtain ⟨c₂, h₂, hr₂⟩ := Cursor.exists_takes hr₁
  obtain ⟨c₃, h₃, hr₃⟩ := Cursor.exists_takes (m := [':']) hr₂
  obtain ⟨c₄, h₄, hr₄⟩ := Cursor.exists_takes (c := Cursor.capture ⟨before, text, []⟩ "pre" c₃) hr₃
  obtain ⟨c₅, h₅, -⟩ := Cursor.exists_takes (m := ['@']) hr₄
  apply Pattern.exists_matchAt (c := c₄.capture "at" c₅)
  simp only [dsnPattern, mem_run_seqs_cons, mem_run_seqs_nil, mem_run_group, mem_run_literal,
    mem_run_many, mem_run_one]
  have hu : 1 ≤ user.length := List.length_pos_of_ne_nil h.user_ne
  have hp : 1 ≤ password.length := List.length_pos_of_ne_nil h.password_ne
  exact ⟨_, ⟨c₃, ⟨c₁, h₁, c₂, ⟨user, h.user_all, hu, by simp, h₂⟩, c₃, ⟨':', rfl, h₃⟩, rfl⟩, rfl⟩,
    c₄, ⟨password, h.password_all, hp, by simp, h₄⟩, _, ⟨c₅, ⟨'@', rfl, h₅⟩, rfl⟩, rfl⟩

lemma DsnAt.unique {user' password' rest' : List Char} (h : DsnAt text user password rest)
    (h' : DsnAt text user' password' rest') : user = user' ∧ rest = rest' := by
  have htext := h.text_eq.symm.trans h'.text_eq
  simp only [List.cons.injEq, true_and] at htext
  obtain ⟨huser, htail⟩ := stretch_unique h.user_all rfl h'.user_all rfl htext
  obtain ⟨-, hrest⟩ := stretch_unique h.password_all rfl h'.password_all rfl (List.cons.inj htail).2
  exact ⟨huser, (List.cons.inj hrest).2⟩

end Match

inductive Masks : List Char → List Char → Prop
  | done : Masks [] []
  | skip {a : Char} {as out : List Char} : (∀ user password rest,
      ¬ DsnAt (a :: as) user password rest) → Masks as out → Masks (a :: as) (a :: out)
  | hit {text user password rest out : List Char} : DsnAt text user password rest → Masks rest out →
      Masks text (masked user ++ out)

section Masks

variable {text out out' : List Char}

lemma masks_of_scan {before : List Char} (h : dsnPattern.Scan before text out) :
    Masks text out := by
  induction h with
  | done => exact .done
  | @skip before a as out hm _ ih =>
    refine .skip (fun user password rest hd => ?_) ih
    obtain ⟨c, hc⟩ := matchAt_of_dsnAt hd before
    rw [hm] at hc
    cases hc
  | hit hm _ ih =>
    obtain ⟨user, password, hd, hexpand⟩ := dsnAt_of_run (Pattern.mem_run_of_matchAt hm)
    rw [hexpand]
    exact .hit hd ih

lemma not_dsnAt_nil {user password rest : List Char} : ¬ DsnAt [] user password rest := by
  intro h
  have ht := h.text_eq
  simp at ht

lemma Masks.unique (h : Masks text out) (h' : Masks text out') : out = out' := by
  induction h generalizing out' with
  | done =>
    cases h' with
    | done => rfl
    | hit hd => exact absurd hd not_dsnAt_nil
  | skip hn _ ih =>
    cases h' with
    | skip _ h' => rw [ih h']
    | hit hd => exact absurd hd (hn _ _ _)
  | hit hd _ ih =>
    cases h' with
    | done => exact absurd hd not_dsnAt_nil
    | skip hn => exact absurd hd (hn _ _ _)
    | hit hd' h' =>
      obtain ⟨rfl, rfl⟩ := hd.unique hd'
      rw [ih h']

lemma DsnAt.before_scheme {x z user password rest : List Char} (hx : x ≠ [])
    (h : DsnAt (x ++ ':' :: '/' :: z) user password rest) : ∃ y, rest = y ++ ':' :: '/' :: z ∧
    ∀ z', DsnAt (x ++ ':' :: '/' :: z') user password (y ++ ':' :: '/' :: z') := by
  have hslash : '/' ∉ user ++ ':' :: (password ++ ['@']) := by
    simp only [List.mem_append, List.mem_cons, List.not_mem_nil, or_false, not_or]
    refine ⟨fun hm => ?_, by decide, fun hm => ?_, by decide⟩
    · exact absurd (h.user_all _ hm) (by decide)
    · exact absurd (h.password_all _ hm) (by decide)
  have htext : x ++ ':' :: '/' :: z = ':' :: '/' :: '/' :: (user ++ ':' :: (password ++ ['@'])) ++
      rest := by
    rw [h.text_eq]
    simp
  obtain ⟨y, hy⟩ : ∃ y, x = ':' :: '/' :: '/' :: (user ++ ':' :: (password ++ ['@'])) ++ y := by
    rcases List.append_eq_append_iff.mp htext with ⟨y, hm, hz⟩ | ⟨y, hy, -⟩
    · rcases y with _ | ⟨b, _ | ⟨b', y⟩⟩
      · exact ⟨[], by rw [List.append_nil] at hm ⊢; exact hm.symm⟩
      · -- the DSN would end in a colon
        obtain ⟨rfl, -⟩ := List.cons.inj hz
        have hlast : x ++ [':'] = (':' :: '/' :: '/' :: (user ++ ':' :: password)) ++ ['@'] := by
          rw [← hm]
          simp
        exact absurd (List.append_inj_right' hlast rfl) (by decide)
      · -- the slash after it would be one of the DSN's own
        simp only [List.cons_append, List.cons.injEq] at hz
        obtain ⟨rfl, rfl, -⟩ := hz
        rcases x with _ | ⟨x₀, _ | ⟨x₁, _ | ⟨x₂, x⟩⟩⟩
        · exact absurd rfl hx
        · simp at hm
        · simp at hm
        · simp only [List.cons_append, List.cons.injEq] at hm
          rw [hm.2.2.2] at hslash
          simp at hslash
    · exact ⟨y, hy⟩
  refine ⟨y, ?_, fun z' => ⟨?_, h.user_ne, h.user_all, h.password_ne, h.password_all⟩⟩
  · rw [hy, List.append_assoc] at htext
    exact (List.append_cancel_left htext).symm
  · rw [hy]
    simp

variable {user password password' post : List Char}

lemma dsnAt_head (hu : user ≠ []) (hua : ∀ a ∈ user, isUserChar a) (hp : password ≠ [])
    (hpa : ∀ a ∈ password, isPasswordChar a) :
    DsnAt (':' :: '/' :: '/' :: (user ++ ':' :: (password ++ '@' :: post))) user password post :=
  ⟨rfl, hu, hua, hp, hpa⟩

lemma Masks.other_password {pre : List Char} (hu : user ≠ []) (hua : ∀ a ∈ user, isUserChar a)
    (hp : password ≠ []) (hpa : ∀ a ∈ password, isPasswordChar a) (hp' : password' ≠ [])
    (hpa' : ∀ a ∈ password', isPasswordChar a)
    (h : Masks (pre ++ ':' :: '/' :: '/' :: (user ++ ':' :: (password ++ '@' :: post))) out) :
    Masks (pre ++ ':' :: '/' :: '/' :: (user ++ ':' :: (password' ++ '@' :: post))) out := by
  generalize htext : pre ++ ':' :: '/' :: '/' :: (user ++ ':' :: (password ++ '@' :: post)) = text
    at h
  induction h generalizing pre with
  | done => simp at htext
  | @skip a as out hn hm ih =>
    cases pre with
    | nil =>
      have hd : DsnAt _ user password post := dsnAt_head hu hua hp hpa
      rw [← List.nil_append (':' :: _), htext] at hd
      exact absurd hd (hn _ _ _)
    | cons b pre =>
      rw [List.cons_append, List.cons.injEq] at htext
      obtain ⟨rfl, htail⟩ := htext
      refine .skip (fun user₀ password₀ rest₀ hd => ?_) (ih htail)
      obtain ⟨y, -, hy⟩ := hd.before_scheme (List.cons_ne_nil b pre)
      have hd' := hy ('/' :: (user ++ ':' :: (password ++ '@' :: post)))
      rw [List.cons_append, htail] at hd'
      exact hn _ _ _ hd'
  | @hit text user₀ password₀ rest out hd hm ih =>
    subst htext
    cases pre with
    | nil =>
      obtain ⟨rfl, rfl⟩ := (dsnAt_head hu hua hp hpa).unique hd
      exact .hit (dsnAt_head hu hua hp' hpa') hm
    | cons b pre =>
      obtain ⟨y, rfl, hy⟩ := hd.before_scheme (List.cons_ne_nil b pre)
      exact .hit (hy _) (ih rfl)

end Masks

lemma masks_dsnPattern (text : List Char) : Masks text (dsnPattern.sub text) :=
  masks_of_scan (dsnPattern.scan_sub text)

section Password

variable (word : Char → Bool) (pre user password password' post : String)

def dsn : String := pre ++ "://" ++ user ++ ":" ++ password ++ "@" ++ post

lemma dsn_toList : (dsn pre user password post).toList = pre.toList ++ ':' :: '/' :: '/' ::
    (user.toList ++ ':' :: (password.toList ++ '@' :: post.toList)) := by
  simp [dsn]

theorem scrubValue_dsn (hu : user ≠ "") (hua : ∀ a ∈ user.toList, noneOf [':', '/', '@'] a)
    (hp : password ≠ "") (hpa : ∀ a ∈ password.toList, noneOf ['@', '/'] a) (hp' : password' ≠ "")
    (hpa' : ∀ a ∈ password'.toList, noneOf ['@', '/'] a) :
    scrubValue word (dsn pre user password post) =
      scrubValue word (dsn pre user password' post) := by
  have hne : ∀ {s : String}, s ≠ "" → s.toList ≠ [] := by
    intro s hs
    rwa [ne_eq, String.toList_eq_nil_iff]
  have hm := masks_dsnPattern (dsn pre user password post).toList
  have hm' := masks_dsnPattern (dsn pre user password' post).toList
  rw [dsn_toList] at hm hm'
  have hsub := (hm.other_password (hne hu) hua (hne hp) hpa (hne hp') hpa').unique hm'
  rw [← dsn_toList, ← dsn_toList] at hsub
  simp only [scrubValue, scrubChars, valuePatterns, List.foldl_cons, hsub]

theorem scrubValue_dsn_partial :
    scrubValue asciiWord (dsn "redis://:x postgres://a:b" "app" "s3cret" "db:5432/app") =
      scrubValue asciiWord (dsn "redis://:x postgres://a:b" "app" "tiger" "db:5432/app") :=
  scrubValue_dsn asciiWord _ _ _ _ _ (by decide) (List.all_eq_true.mp (by decide +kernel))
    (by decide)
    (List.all_eq_true.mp (by decide +kernel)) (by decide) (List.all_eq_true.mp (by decide +kernel))

end Password

end AstropathRelay.Logging
