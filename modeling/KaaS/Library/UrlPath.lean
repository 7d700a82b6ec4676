import Mathlib.Data.List.Basic

/-!
# Paths of URLs

A path travels **escaped**: bytes that may not stand in it are written as `%` and two hexadecimal
digits. A server decodes it once, keeps the decoded path, and keeps the path as it was sent too
where escaping the decoded one would not give it back. `escape` is inverted by `unescape`
(`unescape_escape`), touches no separator (`segments_escape`) and makes no dot segments
(`isDots_escape`).

A multiplexer cleans the path **as it was sent**: a request whose path is not clean is redirected,
unless its method is `CONNECT`. A path that was escaped before it was sent, and that passes, has no
dot segments (`isDots_of_passes`). For other paths this says nothing, since `%2e%2e` is clean.
-/

namespace UrlPath

abbrev Bytes := List UInt8

def bytes (s : String) : Bytes := s.toUTF8.data.toList

theorem bytes_append (s t : String) : bytes (s ++ t) = bytes s ++ bytes t := by
  simp [bytes]

def slash : UInt8 := 47

def percent : UInt8 := 37

def dot : UInt8 := 46

/-! ### Escaping -/

def isAlnum (b : UInt8) : Bool :=
  (48 ≤ b && b ≤ 57) || (65 ≤ b && b ≤ 90) || (97 ≤ b && b ≤ 122)

/-- What stands in a path as it is: letters and digits, `-_.~` and `$&+,/:;=@`. -/
def isPlain (b : UInt8) : Bool :=
  isAlnum b || [45, 95, 46, 126, 36, 38, 43, 44, 47, 58, 59, 61, 64].contains b

/-- What may stand in an escaped path besides: `!'()*[]` and `%`. -/
def isValid (b : UInt8) : Bool := isPlain b || [33, 39, 40, 41, 42, 91, 93, 37].contains b

def hexDigit (n : ℕ) : UInt8 := if n < 10 then 48 + n.toUInt8 else 55 + n.toUInt8

def hexValue (b : UInt8) : Option ℕ :=
  if 48 ≤ b && b ≤ 57 then some (b.toNat - 48)
  else if 65 ≤ b && b ≤ 70 then some (b.toNat - 55)
  else if 97 ≤ b && b ≤ 102 then some (b.toNat - 87)
  else none

def escapeByte (b : UInt8) : Bytes :=
  if isPlain b then [b] else [percent, hexDigit (b.toNat / 16), hexDigit (b.toNat % 16)]

def escape (p : Bytes) : Bytes := p.flatMap escapeByte

def unescape : Bytes → Option Bytes
  | [] => some []
  | b :: h :: l :: rest =>
    if b = percent then
      match hexValue h, hexValue l with
      | some m, some n => (unescape rest).map ((16 * m + n).toUInt8 :: ·)
      | _, _ => none
    else (unescape (h :: l :: rest)).map (b :: ·)
  | b :: rest => if b = percent then none else (unescape rest).map (b :: ·)

section Escape

private theorem hexValue_hexDigit : ∀ n : Fin 16, hexValue (hexDigit n) = some n.val := by
  decide

private theorem hexDigit_ne_slash : ∀ n : Fin 16, hexDigit n ≠ slash := by
  decide

theorem unescape_cons {b : UInt8} (h : b ≠ percent) (rest : Bytes) :
    unescape (b :: rest) = (unescape rest).map (b :: ·) := by
  match rest with
  | [] => simp [unescape, h]
  | [_] => simp [unescape, h]
  | _ :: _ :: _ => rw [unescape, if_neg h]

private theorem unescape_escapeByte (b : UInt8) (rest : Bytes) :
    unescape (escapeByte b ++ rest) = (unescape rest).map (b :: ·) := by
  unfold escapeByte
  split
  · rename_i hplain
    refine unescape_cons ?_ rest
    rintro rfl
    exact absurd hplain (by decide)
  · have hlt : b.toNat < 256 := b.toNat_lt
    have hhigh := hexValue_hexDigit ⟨b.toNat / 16, by omega⟩
    have hlow := hexValue_hexDigit ⟨b.toNat % 16, by omega⟩
    have hbyte : (16 * (b.toNat / 16) + b.toNat % 16).toUInt8 = b := by
      rw [Nat.div_add_mod]
      exact UInt8.ofNat_toNat
    simp only [List.cons_append, List.nil_append, unescape, if_true, hhigh, hlow, hbyte]

/-- **Decoding undoes escaping.** -/
theorem unescape_escape (p : Bytes) : unescape (escape p) = some p := by
  induction p with
  | nil => rfl
  | cons b p ih =>
    have hcons : escape (b :: p) = escapeByte b ++ escape p := rfl
    rw [hcons, unescape_escapeByte, ih, Option.map_some]

theorem escape_injective {p q : Bytes} (h : escape p = escape q) : p = q := by
  have hdecoded := congrArg unescape h
  rw [unescape_escape, unescape_escape] at hdecoded
  exact Option.some.inj hdecoded

end Escape

/-! ### Segments -/

/-- The segments of a path that starts with the separator. -/
def segments (p : Bytes) : List Bytes := (p.splitOn slash).tail

/-- A segment that is a step in the path and not a name. -/
def isDots (s : Bytes) : Bool := s == [dot] || s == [dot, dot]

/-- One segment more: `.` stays, and `..` goes back. -/
def enter (stack : List Bytes) (s : Bytes) : List Bytes :=
  if s = [dot] then stack else if s = [dot, dot] then stack.tail else s :: stack

/-- The segments after the dot segments have been followed. -/
def resolve (segs : List Bytes) : List Bytes := (segs.foldl enter []).reverse

def rooted (p : Bytes) : Bytes := if p.head? = some slash then p else slash :: p

/-- The path a multiplexer redirects to. -/
def cleanPath (p : Bytes) : Bytes :=
  let segs := resolve ((segments (rooted p)).filter (· ≠ []))
  let cleaned := slash :: [slash].intercalate segs
  if (rooted p).getLast? = some slash ∧ cleaned ≠ [slash] then cleaned ++ [slash] else cleaned

section Segments

variable {p : Bytes} {s : Bytes}

private theorem splitOn_cons_ne {b : UInt8} (h : b ≠ slash) (p : Bytes) :
    (b :: p).splitOn slash = (p.splitOn slash).modifyHead (b :: ·) := by
  rw [List.splitOn, List.splitOnP_cons_eq_if_modifyHead, if_neg (by simpa using h)]
  rfl

private theorem splitOn_cons_slash (p : Bytes) :
    (slash :: p).splitOn slash = [] :: p.splitOn slash := by
  rw [List.splitOn, List.splitOnP_cons_eq_if_modifyHead, if_pos (by simp)]
  rfl

@[simp] theorem segments_slash (p : Bytes) : segments (slash :: p) = p.splitOn slash := by
  rw [segments, splitOn_cons_slash, List.tail_cons]

theorem segments_append (p q : Bytes) :
    segments (p ++ slash :: q) = segments p ++ segments (slash :: q) := by
  obtain ⟨s, rest, hsplit⟩ := List.exists_cons_of_ne_nil (List.splitOn_ne_nil slash p)
  rw [segments_slash, segments, List.splitOn_append_cons_self, segments, hsplit]
  rfl

theorem not_mem_of_mem_splitOn (h : s ∈ p.splitOn slash) : slash ∉ s := by
  induction p generalizing s with
  | nil =>
    rw [List.splitOn_nil, List.mem_singleton] at h
    simp [h]
  | cons b p ih =>
    by_cases hb : b = slash
    · rw [hb, splitOn_cons_slash] at h
      rcases List.mem_cons.1 h with rfl | h
      · simp
      · exact ih h
    · obtain ⟨t, rest, hsplit⟩ := List.exists_cons_of_ne_nil (List.splitOn_ne_nil slash p)
      rw [splitOn_cons_ne hb, hsplit, List.modifyHead_cons] at h
      rcases List.mem_cons.1 h with rfl | h
      · have ht : slash ∉ t := ih (hsplit ▸ List.mem_cons_self)
        simp [ht, Ne.symm hb]
      · exact ih (hsplit ▸ List.mem_cons_of_mem _ h)

/-- **Escaping keeps the segments apart.** -/
theorem splitOn_escape (p : Bytes) :
    (escape p).splitOn slash = (p.splitOn slash).map escape := by
  induction p with
  | nil => rfl
  | cons b p ih =>
    have hcons : escape (b :: p) = escapeByte b ++ escape p := rfl
    obtain ⟨t, rest, hsplit⟩ := List.exists_cons_of_ne_nil (List.splitOn_ne_nil slash p)
    rw [hcons]
    by_cases hb : b = slash
    · subst hb
      have hslash : escapeByte slash = [slash] := by decide
      rw [hslash, List.singleton_append, splitOn_cons_slash, splitOn_cons_slash, ih]
      rfl
    · rw [splitOn_cons_ne hb, hsplit, List.modifyHead_cons, List.map_cons]
      have hnext : ∀ bs : Bytes, slash ∉ bs →
          (bs ++ escape p).splitOn slash = (bs ++ escape t) :: rest.map escape := by
        intro bs hbs
        induction bs with
        | nil => rw [List.nil_append, ih, hsplit]; rfl
        | cons c bs ihbs =>
          rw [List.mem_cons, not_or] at hbs
          rw [List.cons_append, splitOn_cons_ne (Ne.symm hbs.1), ihbs hbs.2]
          rfl
      refine hnext _ ?_
      have hlt : b.toNat < 256 := b.toNat_lt
      have hhigh := hexDigit_ne_slash ⟨b.toNat / 16, by omega⟩
      have hlow := hexDigit_ne_slash ⟨b.toNat % 16, by omega⟩
      unfold escapeByte
      split
      · simpa using Ne.symm hb
      · simp only [List.mem_cons, List.not_mem_nil, or_false, not_or]
        exact ⟨by decide, hhigh.symm, hlow.symm⟩

theorem segments_escape (p : Bytes) : segments (escape p) = (segments p).map escape := by
  rw [segments, segments, splitOn_escape, List.map_tail]

theorem isDots_escape (s : Bytes) : isDots (escape s) = isDots s := by
  have hdot : escape [dot] = [dot] := by decide
  have hdots : escape [dot, dot] = [dot, dot] := by decide
  have hiff : ∀ t : Bytes, escape t = t → (escape s == t) = (s == t) := by
    intro t ht
    rw [Bool.eq_iff_iff, beq_iff_eq, beq_iff_eq]
    constructor
    · intro h
      exact escape_injective (h.trans ht.symm)
    · rintro rfl
      exact ht
  rw [isDots, isDots, hiff _ hdot, hiff _ hdots]

end Segments

/-! ### Following dot segments -/

section Resolve

variable {segs : List Bytes} {s : Bytes}

private theorem enter_of_not_isDots (h : isDots s = false) (stack : List Bytes) :
    enter stack s = s :: stack := by
  simp only [isDots, Bool.or_eq_false_iff, beq_eq_false_iff_ne] at h
  rw [enter, if_neg h.1, if_neg h.2]

theorem resolve_eq_self (h : ∀ s ∈ segs, isDots s = false) : resolve segs = segs := by
  have hfold : ∀ (stack : List Bytes), segs.foldl enter stack = segs.reverse ++ stack := by
    induction segs with
    | nil => intro stack; rfl
    | cons s segs ih =>
      intro stack
      have htail := ih fun t ht => h t (List.mem_cons_of_mem _ ht)
      rw [List.foldl_cons, enter_of_not_isDots (h s List.mem_cons_self), htail,
        List.reverse_cons, List.append_assoc, List.singleton_append]
  rw [resolve, hfold, List.append_nil, List.reverse_reverse]

theorem mem_resolve (h : s ∈ resolve segs) : s ∈ segs ∧ isDots s = false := by
  have hfold : ∀ (stack : List Bytes), s ∈ segs.foldl enter stack →
      s ∈ stack ∨ s ∈ segs ∧ isDots s = false := by
    clear h
    induction segs with
    | nil => intro stack h; exact .inl h
    | cons t segs ih =>
      intro stack h
      rcases ih _ h with h | ⟨h, hs⟩
      · unfold enter at h
        split at h
        · exact .inl h
        · split at h
          · exact .inl (List.mem_of_mem_tail h)
          · rename_i hdot hdots
            rcases List.mem_cons.1 h with rfl | h
            · refine .inr ⟨List.mem_cons_self, ?_⟩
              simp [isDots, hdot, hdots]
            · exact .inl h
      · exact .inr ⟨List.mem_cons_of_mem _ h, hs⟩
  rcases hfold [] (List.mem_reverse.1 h) with h | h
  · cases h
  · exact h

theorem isDots_cleanPath (p : Bytes) : ∀ s ∈ segments (cleanPath p), isDots s = false := by
  intro s hs
  simp only [cleanPath] at hs
  generalize hsegs : resolve ((segments (rooted p)).filter (· ≠ [])) = segs at hs
  have hmem : ∀ t ∈ segs, slash ∉ t ∧ isDots t = false := by
    intro t ht
    rw [← hsegs] at ht
    obtain ⟨ht, hdots⟩ := mem_resolve ht
    exact ⟨not_mem_of_mem_splitOn (List.mem_of_mem_tail (List.mem_filter.1 ht).1), hdots⟩
  have hjoin : ∀ t ∈ ([slash].intercalate segs).splitOn slash, isDots t = false := by
    intro t ht
    by_cases hnil : segs = []
    · rw [hnil] at ht
      obtain rfl : t = [] := by simpa using ht
      rfl
    · rw [List.splitOn_intercalate slash (fun t ht => (hmem t ht).1) hnil] at ht
      exact (hmem t ht).2
  split at hs
  · rw [segments_append, List.mem_append, segments_slash,
      segments_slash] at hs
    rcases hs with hs | hs
    · exact hjoin s hs
    · obtain rfl : s = [] := by simpa using hs
      rfl
  · rw [segments_slash] at hs
    exact hjoin s hs

end Resolve

/-! ### Requests -/

/-- The path of a request: decoded, and as sent where that differs from its escaping. -/
structure URL where
  path : Bytes
  rawPath : Bytes := []

/-- A target that is a path, from the root. -/
def parse (target : Bytes) : Option URL :=
  if target.head? ≠ some slash then none
  else (unescape target).map fun path =>
    { path, rawPath := if target = escape path then [] else target }

def URL.escapedPath (u : URL) : Bytes :=
  if u.rawPath ≠ [] ∧ u.rawPath.all isValid = true ∧ unescape u.rawPath = some u.path then
    u.rawPath
  else if u.path = bytes "*" then u.path
  else escape u.path

/-- The segments that a multiplexer matches: it splits the path as sent, and then decodes. -/
def URL.decodedSegments (u : URL) : List Bytes :=
  (segments u.escapedPath).map fun s => (unescape s).getD s

/-- A multiplexer passes the request on, and does not redirect it to a clean path. -/
def passes (method : String) (u : URL) : Bool :=
  method == "CONNECT" || cleanPath u.escapedPath == u.escapedPath

theorem parse_escape (p : Bytes) : parse (escape (slash :: p)) = some { path := slash :: p } := by
  have hhead : (escape (slash :: p)).head? = some slash := rfl
  rw [parse, if_neg (not_not.2 hhead), unescape_escape, Option.map_some, if_pos rfl]

section Decoding

/-- No escape spans a separator. -/
theorem unescape_append_slash (p q : Bytes) : unescape (p ++ slash :: q) =
    (unescape p).bind fun p' => (unescape q).map fun q' => p' ++ slash :: q' := by
  have hslash : slash ≠ percent := by decide
  have hhex : hexValue slash = none := by decide
  fun_induction unescape p with
  | case1 => simpa using unescape_cons hslash q
  | case2 h l rest m n hm hn ih =>
    simp only [List.cons_append, unescape, if_true, hm, hn, ih]
    cases unescape rest <;> simp [Function.comp_def]
  | case3 h l rest hbad =>
    simp only [List.cons_append, unescape, if_true]
    rfl
  | case4 b h l rest hb ih =>
    have hcons := unescape_cons hb (h :: l :: rest ++ slash :: q)
    simp only [List.cons_append] at hcons ih ⊢
    rw [hcons, ih]
    cases unescape (h :: l :: rest) <;> simp [Function.comp_def]
  | case5 rest hshort =>
    match rest with
    | [] =>
      match q with
      | [] => rfl
      | _ :: _ => simp [unescape, hhex]
    | [h] => simp [unescape, hhex]
    | _ :: _ :: _ => exact (hshort _ _ _ rfl).elim
  | case6 b rest hshort hb ih =>
    rw [List.cons_append, unescape_cons hb, ih]
    cases unescape rest <;> simp [Function.comp_def]

private theorem eq_intercalate_of_unescape {segs : List Bytes} {p : Bytes}
    (h : unescape ([slash].intercalate segs) = some p) :
    p = [slash].intercalate (segs.map fun s => (unescape s).getD s) := by
  induction segs generalizing p with
  | nil => exact (Option.some.inj h).symm
  | cons s segs ih =>
    cases segs with
    | nil =>
      rw [List.intercalate_singleton] at h
      rw [List.map_singleton, List.intercalate_singleton, h, Option.getD_some]
    | cons t segs =>
      rw [List.intercalate_cons_cons, List.append_assoc, List.singleton_append,
        unescape_append_slash] at h
      obtain ⟨s', hs, h⟩ := Option.bind_eq_some_iff.1 h
      obtain ⟨q, hq, rfl⟩ := Option.map_eq_some_iff.1 h
      have htail := ih hq
      rw [List.map_cons] at htail
      rw [List.map_cons, List.map_cons, List.intercalate_cons_cons, ← htail, hs,
        Option.getD_some, List.append_assoc, List.singleton_append]

variable {target : Bytes} {u : URL}

private theorem unescape_escapedPath (u : URL) : unescape u.escapedPath = some u.path := by
  unfold URL.escapedPath
  split
  · rename_i hraw
    exact hraw.2.2
  · split
    · rename_i hstar
      rw [hstar]
      decide +kernel
    · exact unescape_escape u.path

theorem exists_path_of_parse (h : parse target = some u) : ∃ p, u.path = slash :: p := by
  unfold parse at h
  split at h
  · cases h
  · rename_i hhead
    obtain ⟨path, hpath, rfl⟩ := Option.map_eq_some_iff.1 h
    obtain ⟨rest, rfl⟩ := List.head?_eq_some_iff.1 (not_not.1 hhead)
    rw [unescape_cons (by decide)] at hpath
    obtain ⟨p, -, rfl⟩ := Option.map_eq_some_iff.1 hpath
    exact ⟨p, rfl⟩

private theorem exists_escapedPath_of_parse (h : parse target = some u) :
    ∃ p, u.escapedPath = slash :: p := by
  obtain ⟨p, hp⟩ := exists_path_of_parse h
  unfold URL.escapedPath
  split
  · rename_i hraw
    unfold parse at h
    split at h
    · cases h
    · rename_i hhead
      obtain ⟨path, -, rfl⟩ := Option.map_eq_some_iff.1 h
      obtain ⟨rest, htarget⟩ := List.head?_eq_some_iff.1 (not_not.1 hhead)
      refine ⟨rest, ?_⟩
      simp only at hraw ⊢
      split at hraw
      · exact absurd rfl hraw.1
      · rename_i hne
        rw [if_neg hne, htarget]
  · rw [hp]
    split
    · exact ⟨p, rfl⟩
    · exact ⟨escape p, rfl⟩

/-- **The decoded path is made of the decoded segments**, each of which may have separators of its
own. -/
theorem path_eq_of_parse (h : parse target = some u) :
    u.path = slash :: [slash].intercalate u.decodedSegments := by
  obtain ⟨p, hp⟩ := exists_escapedPath_of_parse h
  have hdecoded := unescape_escapedPath u
  rw [hp, unescape_cons (by decide)] at hdecoded
  obtain ⟨q, hq, hpath⟩ := Option.map_eq_some_iff.1 hdecoded
  have hsplit : [slash].intercalate (p.splitOn slash) = p := List.intercalate_splitOn slash
  rw [← hsplit] at hq
  rw [← hpath, eq_intercalate_of_unescape hq, URL.decodedSegments, hp, segments_slash]

end Decoding

/-- **A path that was escaped and is clean** has no dot segments. -/
theorem isDots_of_passes {method : String} {p : Bytes} (hmethod : method ≠ "CONNECT")
    (hstar : p ≠ bytes "*") (h : passes method { path := p } = true) :
    ∀ s ∈ segments p, isDots s = false := by
  have hescaped : URL.escapedPath { path := p } = escape p := by
    rw [URL.escapedPath, if_neg (fun h => h.1 rfl), if_neg hstar]
  have hclean : cleanPath (escape p) = escape p := by
    simpa [passes, hescaped, hmethod] using h
  intro s hs
  have hmem : escape s ∈ segments (cleanPath (escape p)) := by
    rw [hclean, segments_escape]
    exact List.mem_map_of_mem hs
  rw [← isDots_escape]
  exact isDots_cleanPath _ _ hmem

end UrlPath
