import Rollcall.Database.Target

/-!
What the mask hides.

The mask goes from the last colon before the first `@` to this `@`, wherever these two stand. Of a
password it leaves what goes up to the last colon in it, so it hides exactly the passwords without a
colon. And it covers what is no password where an `@` stands behind the authority and a colon before
that (`masking_exact`).
-/

namespace Rollcall.Database

/-- A text up to its last colon, with this colon. -/
def throughColon (cs : List Char) : List Char := (cs.reverse.dropWhile (· ≠ ':')).reverse

/-- What follows the last colon of a text, all of it if there is none. -/
def behindColon (cs : List Char) : List Char := (cs.reverse.takeWhile (· ≠ ':')).reverse

section Colons

variable {cs front back : List Char}

theorem not_mem_iff_forall {c : Char} : c ∉ cs ↔ ∀ d ∈ cs, decide (d ≠ c) = true := by
  constructor
  · intro hnone d hd
    exact decide_eq_true fun hsame => hnone (hsame ▸ hd)
  · intro hall hmem
    exact absurd rfl (of_decide_eq_true (hall c hmem))

theorem takeWhile_ne {c : Char} (hnone : c ∉ front) (rest : List Char) :
    (front ++ c :: rest).takeWhile (· ≠ c) = front := by
  rw [List.takeWhile_append_of_pos (not_mem_iff_forall.mp hnone)]
  simp

theorem takeWhile_ne_self {c : Char} (hnone : c ∉ cs) : cs.takeWhile (· ≠ c) = cs := by
  have hall : (cs ++ []).takeWhile (· ≠ c) = cs ++ [].takeWhile (· ≠ c) :=
    List.takeWhile_append_of_pos (not_mem_iff_forall.mp hnone)
  simpa using hall

theorem dropWhile_ne {c : Char} (hnone : c ∉ front) (rest : List Char) :
    (front ++ rest).dropWhile (· ≠ c) = rest.dropWhile (· ≠ c) :=
  List.dropWhile_append_of_pos (not_mem_iff_forall.mp hnone)

/-- A text with a colon splits at its last one. -/
theorem exists_lastColon (hcolon : ':' ∈ cs) :
    ∃ front back, cs = front ++ ':' :: back ∧ ':' ∉ back := by
  obtain ⟨front, back, hsplit, hnone⟩ := List.eq_append_cons_of_mem (List.mem_reverse.mpr hcolon)
  refine ⟨back.reverse, front.reverse, ?_, by simpa using hnone⟩
  rw [← List.reverse_reverse cs, hsplit]
  simp

theorem throughColon_append (hback : ':' ∉ back) :
    throughColon (front ++ ':' :: back) = front ++ [':'] := by
  have hreverse : (front ++ ':' :: back).reverse = back.reverse ++ ':' :: front.reverse := by simp
  rw [throughColon, hreverse, dropWhile_ne (by simpa using hback)]
  simp

theorem throughColon_eq_nil : throughColon cs = [] ↔ ':' ∉ cs := by
  constructor
  · intro hnil hcolon
    obtain ⟨front, back, rfl, hback⟩ := exists_lastColon hcolon
    simp [throughColon_append hback] at hnil
  · intro hnone
    have hreverse : ':' ∉ cs.reverse := by simpa using hnone
    have hdropped := dropWhile_ne hreverse []
    rw [List.append_nil] at hdropped
    rw [throughColon, hdropped]
    rfl

theorem behindColon_append (hback : ':' ∉ back) : behindColon (front ++ ':' :: back) = back := by
  have hreverse : (front ++ ':' :: back).reverse = back.reverse ++ ':' :: front.reverse := by simp
  rw [behindColon, hreverse, takeWhile_ne (by simpa using hback), List.reverse_reverse]

theorem lastColon?_of_not_mem (hnone : ':' ∉ cs) : lastColon? cs = none := by
  simp only [lastColon?, Option.map_eq_none_iff, List.findIdx?_eq_none_iff, List.mem_reverse]
  exact fun d hd => decide_eq_false fun hsame => hnone (hsame ▸ hd)

/-- The place of the last colon is the length of what stands before it. -/
theorem lastColon?_append (hback : ':' ∉ back) :
    lastColon? (front ++ ':' :: back) = some front.length := by
  have hnone : back.reverse.findIdx? (· = ':') = none := by
    simpa [lastColon?] using lastColon?_of_not_mem hback
  have hfound : (front ++ ':' :: back).reverse.findIdx? (· = ':') = some back.length := by
    simp [List.findIdx?_append, hnone, List.findIdx?_cons]
  rw [lastColon?, hfound]
  simp

theorem hasSlashes_append (front back : List Char) :
    hasSlashes (front ++ '/' :: '/' :: back) = true := by
  induction front with
  | nil => rfl
  | cons c front ih =>
      rw [List.cons_append]
      unfold hasSlashes
      split
      · rfl
      · simp_all
      · simp_all

theorem hasSlashes_of_not_mem (hnone : '/' ∉ cs) : hasSlashes cs = false := by
  fun_induction hasSlashes cs with
  | case1 => simp at hnone
  | case2 c cs hcs ih => exact ih fun hmem => hnone (List.mem_cons_of_mem c hmem)
  | case3 => rfl

end Colons

section Masked

variable {front back rest : List Char}

/-- Without an `@` nothing is masked. -/
theorem maskedChars_of_not_mem (hnone : '@' ∉ rest) : maskedChars rest = rest := by
  rw [maskedChars, takeWhile_ne_self hnone, if_pos rfl]

/-- What stands between the last colon before the first `@` and this `@` is masked, where the scheme
is over before that colon. -/
theorem maskedChars_append (rest : List Char) (hfront : '@' ∉ front) (hback : '@' ∉ back)
    (hcolon : ':' ∉ back) :
    maskedChars (front ++ ':' :: back ++ '@' :: rest) =
      if hasSlashes front then front ++ [':'] ++ mask ++ '@' :: rest
      else front ++ ':' :: back ++ '@' :: rest := by
  have hat : '@' ∉ front ++ ':' :: back := by simp [hfront, hback]
  have hshorter : (front ++ ':' :: back).length ≠ (front ++ ':' :: back ++ '@' :: rest).length := by
    simp
  have hscheme : (front ++ ':' :: back ++ '@' :: rest).take front.length = front := by simp
  have hbefore :
      (front ++ ':' :: back ++ '@' :: rest).take (front.length + 1) = front ++ [':'] := by
    simp [List.take_append, List.take_of_length_le]
  have hafter : (front ++ ':' :: back ++ '@' :: rest).drop (front ++ ':' :: back).length =
      '@' :: rest := List.drop_left
  unfold maskedChars
  simp only [takeWhile_ne hat, lastColon?_append hcolon, if_neg hshorter, hscheme, hbefore, hafter]

/-- Of a password everything up to its last colon is shown. -/
theorem maskedChars_login {scheme user password : List Char} (rest : List Char)
    (hscheme : '@' ∉ scheme) (huser : '@' ∉ user) (hpassword : '@' ∉ password) :
    maskedChars (scheme ++ "://".toList ++ user ++ ":".toList ++ password ++ "@".toList ++ rest) =
      scheme ++ "://".toList ++ user ++ ":".toList ++ (throughColon password ++ mask) ++
        "@".toList ++ rest := by
  by_cases hcolon : ':' ∈ password
  · obtain ⟨shown, hidden, rfl, hhidden⟩ := exists_lastColon hcolon
    have hat : '@' ∉ scheme ++ "://".toList ++ user ++ ":".toList ++ shown := by
      simp_all
    have hmasked := maskedChars_append rest hat (by simp_all) hhidden
    have hslashes : hasSlashes (scheme ++ "://".toList ++ user ++ ":".toList ++ shown) = true := by
      simpa using hasSlashes_append (scheme ++ [':']) (user ++ ':' :: shown)
    rw [if_pos hslashes] at hmasked
    rw [throughColon_append hhidden]
    simpa using hmasked
  · have hat : '@' ∉ scheme ++ "://".toList ++ user := by simp_all
    have hmasked := maskedChars_append rest hat hpassword hcolon
    have hslashes : hasSlashes (scheme ++ "://".toList ++ user) = true := by
      simpa using hasSlashes_append (scheme ++ [':']) user
    rw [if_pos hslashes] at hmasked
    rw [throughColon_eq_nil.mpr hcolon]
    simpa using hmasked

/-- What is left of the text as it was, given the part of it behind the scheme. -/
theorem maskedChars_eq_self_iff {scheme : List Char} (tail : List Char) (hat : '@' ∉ scheme)
    (hslash : '/' ∉ scheme) :
    maskedChars (scheme ++ "://".toList ++ tail) = scheme ++ "://".toList ++ tail ↔
      '@' ∉ tail ∨ ':' ∉ tail.takeWhile (· ≠ '@') ∨
        behindColon (tail.takeWhile (· ≠ '@')) = mask := by
  by_cases hmem : '@' ∈ tail
  · obtain ⟨before, rest, rfl, hbefore⟩ := List.eq_append_cons_of_mem hmem
    rw [takeWhile_ne hbefore]
    by_cases hcolon : ':' ∈ before
    · obtain ⟨shown, hidden, rfl, hhidden⟩ := exists_lastColon hcolon
      have hfront : '@' ∉ scheme ++ "://".toList ++ shown := by simp_all
      have hmasked := maskedChars_append rest hfront (by simp_all) hhidden
      have hslashes : hasSlashes (scheme ++ "://".toList ++ shown) = true := by
        simpa using hasSlashes_append (scheme ++ [':']) shown
      rw [if_pos hslashes] at hmasked
      have hsplit : scheme ++ "://".toList ++ (shown ++ ':' :: hidden ++ '@' :: rest) =
          scheme ++ "://".toList ++ shown ++ ':' :: hidden ++ '@' :: rest := by simp
      rw [hsplit, hmasked, behindColon_append hhidden]
      simp [hcolon, eq_comm]
    · have hback : '@' ∉ "//".toList ++ before := by simp_all
      have hnone : ':' ∉ "//".toList ++ before := by simp_all
      have hmasked := maskedChars_append rest hat hback hnone
      rw [if_neg (by simp [hasSlashes_of_not_mem hslash])] at hmasked
      simpa [hcolon] using hmasked
  · have hnone : '@' ∉ scheme ++ "://".toList ++ tail := by simp_all
    exact iff_of_true (maskedChars_of_not_mem hnone) (.inl hmem)

end Masked

def isSchemeChar (c : Char) : Bool := c.isAlphanum || "+-.".toList.contains c

/-- The characters that a user and a password are made of, and the colon between them. -/
def isUserInfoChar (c : Char) : Bool := c.isAlphanum || "-._~%!$&'()*+,;=:".toList.contains c

structure Scheme where
  text : String
  legal : ∀ c ∈ text.toList, isSchemeChar c = true

structure Password where
  text : String
  legal : ∀ c ∈ text.toList, isUserInfoChar c = true

/-- A URL that names a user with a password. -/
structure Login where
  scheme : Scheme
  user : String
  plain : ∀ c ∈ user.toList, c ≠ ':' ∧ c ≠ '/' ∧ c ≠ '@'
  password : Password
  /-- The host and what follows. -/
  rest : String

def Login.urlWith (l : Login) (secret : String) : String :=
  l.scheme.text ++ "://" ++ l.user ++ ":" ++ secret ++ "@" ++ l.rest

def Login.url (l : Login) : String := l.urlWith l.password.text

/-- A URL that names no user. -/
structure Place where
  scheme : Scheme
  authority : String
  bare : ∀ c ∈ authority.toList, c ≠ '@' ∧ c ≠ '/' ∧ c ≠ '?' ∧ c ≠ '#'
  rest : String
  apart : ∀ c, rest.toList.head? = some c → c = '/' ∨ c = '?' ∨ c = '#'

def Place.url (p : Place) : String := p.scheme.text ++ "://" ++ p.authority ++ p.rest

theorem Scheme.not_mem (s : Scheme) : '@' ∉ s.text.toList ∧ '/' ∉ s.text.toList :=
  ⟨fun hmem => absurd (s.legal _ hmem) (by decide), fun hmem => absurd (s.legal _ hmem) (by decide)⟩

theorem Password.not_mem (p : Password) : '@' ∉ p.text.toList :=
  fun hmem => absurd (p.legal _ hmem) (by decide)

/-- What the mask leaves of a password. -/
def Password.shown (p : Password) : String := String.ofList (throughColon p.text.toList)

def Place.beforeAt (p : Place) : List Char := (p.authority ++ p.rest).toList.takeWhile (· ≠ '@')

/-- The mask leaves nothing of a password exactly if that has no colon. -/
theorem Password.shown_eq_empty (p : Password) : p.shown = "" ↔ ':' ∉ p.text.toList := by
  rw [← throughColon_eq_nil, ← String.toList_inj]
  simp [shown]

/-- A URL tells which text stands in the place of the password. -/
theorem Login.urlWith_inj (l : Login) {s t : String} : l.urlWith s = l.urlWith t ↔ s = t := by
  have hlists : s = t ↔ s.toList = t.toList := String.toList_inj.symm
  rw [hlists, ← String.toList_inj]
  simp [urlWith]

/-- What is masked is the part of the password behind its last colon. -/
theorem Login.masked_url (l : Login) : masked l.url = l.urlWith (l.password.shown ++ "***") := by
  have huser : '@' ∉ l.user.toList := fun hmem => (l.plain _ hmem).2.2 rfl
  have hmasked := maskedChars_login l.rest.toList l.scheme.not_mem.1 huser l.password.not_mem
  rw [← String.toList_inj]
  simpa [masked, url, urlWith, Password.shown, mask] using hmasked

/-- A URL without a user is changed only if an `@` comes later, with a colon before it and no mask
behind that colon yet. -/
theorem Place.masked_url_iff (p : Place) : masked p.url = p.url ↔
    '@' ∉ p.rest.toList ∨ ':' ∉ p.beforeAt ∨ behindColon p.beforeAt = mask := by
  have hbare : '@' ∉ p.authority.toList := fun hmem => (p.bare _ hmem).1 rfl
  have hmasked := maskedChars_eq_self_iff (p.authority ++ p.rest).toList
    p.scheme.not_mem.1 p.scheme.not_mem.2
  have hmem : '@' ∉ (p.authority ++ p.rest).toList ↔ '@' ∉ p.rest.toList := by simp [hbare]
  rw [hmem] at hmasked
  rw [← String.toList_inj, beforeAt, ← hmasked]
  simp [masked, url]

/-- Whatever the scheme, the user, the password and the rest: the masked URL shows the password up
to its last colon, so it hides the whole of it exactly if there is no colon in it, and two passwords
look alike exactly if they agree so far. A URL without a user is left as it is exactly if no `@`
follows the authority, or no colon stands before the first one, or there is nothing but a mask
between the two. -/
theorem masking_exact (l : Login) (password : Password) (p : Place) :
    (masked l.url = l.urlWith (l.password.shown ++ "***") ∧
      (masked l.url = l.urlWith "***" ↔ ':' ∉ l.password.text.toList) ∧
      (masked { l with password }.url = masked l.url ↔ password.shown = l.password.shown)) ∧
    (masked p.url = p.url ↔
      '@' ∉ p.rest.toList ∨ ':' ∉ p.beforeAt ∨ behindColon p.beforeAt = mask) := by
  refine ⟨⟨l.masked_url, ?_, ?_⟩, p.masked_url_iff⟩
  · rw [l.masked_url, l.urlWith_inj, ← l.password.shown_eq_empty]
    simp
  · have hother : masked { l with password }.url = l.urlWith (password.shown ++ "***") :=
      Login.masked_url { l with password }
    rw [hother, l.masked_url, l.urlWith_inj]
    simp

/-- A password with a colon in it, and an `@` in a query: a part of the first is shown, and what is
covered in the second is no password. -/
theorem colon_shows_password :
    (∃ l : Login, l.url = "postgres://blog:se:cret@db:5432/blog" ∧ l.password.text = "se:cret" ∧
      masked l.url = "postgres://blog:se:***@db:5432/blog" ∧ masked l.url ≠ l.urlWith "***") ∧
    ∃ p : Place, p.url = "postgres://db:5432/blog?application_name=a@b" ∧
      masked p.url = "postgres://db:***@b" := by
  let scheme : Scheme := ⟨"postgres", List.all_eq_true.mp (by decide)⟩
  let password : Password := ⟨"se:cret", List.all_eq_true.mp (by decide)⟩
  let secret : Login := ⟨scheme, "blog", by simp, password, "db:5432/blog"⟩
  let place : Place := ⟨scheme, "db:5432", by simp, "/blog?application_name=a@b", by simp⟩
  exact ⟨⟨secret, by decide, rfl, by decide, by decide⟩, place, by decide, by decide⟩

end Rollcall.Database
