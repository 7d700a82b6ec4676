import KaaS.Library.Text
import Mathlib.Data.List.AList

/-!
# Headers and the proxies they pass

A header maps names, in canonical case, to lists of values. Values are **symbolic**: a value is a
sequence of pieces of text and of secrets, so that to contain a secret means to have received it,
and not to be equal to it by chance. Where a value is read, it is rendered.

A reverse proxy first lets its owner edit the header and **then** removes what concerns one
connection only: the known hop-by-hop headers, and every header that the client has listed in
`Connection`. What the owner has set is not exempt (`lookup_reverseProxy`). Afterwards it adds what
an upgrade needs, and the address of the client. No secret is in what it sends that was not in the
same header of what it was given (`carries_of_reverseProxy`).
-/

namespace Http

open Text

/-! ### Values -/

inductive Piece (σ : Type*)
  | text (s : String)
  | secret (k : σ)
  deriving DecidableEq

abbrev Value (σ : Type*) := List (Piece σ)

variable {σ : Type*}

def Value.ofText (s : String) : Value σ := [.text s]

/-- The value with the secrets filled in. -/
def Value.render (K : σ → String) (v : Value σ) : String :=
  join "" (v.map fun
    | .text s => s
    | .secret k => K k)

def Value.Carries (k : σ) (v : Value σ) : Prop := .secret k ∈ v

instance Value.Carries.decidable [DecidableEq σ] (k : σ) (v : Value σ) :
    Decidable (Value.Carries k v) :=
  inferInstanceAs (Decidable (_ ∈ v))

theorem Value.not_carries_ofText {k : σ} {s : String} : ¬ (Value.ofText s).Carries k := by
  simp [Carries, ofText]

/-! ### Headers -/

abbrev Header (σ : Type*) := AList fun _ : String => List (Value σ)

namespace Header

def values (h : Header σ) (name : String) : List (Value σ) := (h.lookup name).getD []

/-- The first value of a header, or the empty one. -/
def get (h : Header σ) (name : String) : Value σ := (h.values name).headD []

def set (h : Header σ) (name : String) (v : Value σ) : Header σ := h.insert name [v]

def del (h : Header σ) (name : String) : Header σ := h.erase name

section Lemmas

variable {h : Header σ} {name other : String} {v w : Value σ}

@[simp] theorem lookup_set_self : (h.set name v).lookup name = some [v] := AList.lookup_insert h

theorem lookup_set_of_ne (hne : other ≠ name) :
    (h.set name v).lookup other = h.lookup other := AList.lookup_insert_ne hne

@[simp] theorem lookup_del_self : (h.del name).lookup name = none := AList.lookup_erase name h

theorem lookup_del_of_ne (hne : other ≠ name) : (h.del name).lookup other = h.lookup other :=
  AList.lookup_erase_ne hne

theorem values_congr {h' : Header σ} (heq : h.lookup name = h'.lookup name) :
    h.values name = h'.values name := by
  rw [values, values, heq]

theorem mem_values_set (hw : w ∈ (h.set name v).values other) :
    other = name ∧ w = v ∨ other ≠ name ∧ w ∈ h.values other := by
  by_cases hother : other = name
  · subst hother
    rw [values, lookup_set_self] at hw
    exact .inl ⟨rfl, List.mem_singleton.1 hw⟩
  · rw [values_congr (lookup_set_of_ne hother)] at hw
    exact .inr ⟨hother, hw⟩

theorem mem_values_iff : v ∈ h.values name ↔ ∃ vs, ⟨name, vs⟩ ∈ h.entries ∧ v ∈ vs := by
  simp only [← AList.mem_lookup_iff, values, Option.mem_def]
  cases h.lookup name with
  | none => simp
  | some vs => simp

theorem lookup_foldl_del (h : Header σ) (names : List String) (other : String) :
    (names.foldl del h).lookup other = if other ∈ names then none else h.lookup other := by
  induction names generalizing h with
  | nil => simp
  | cons name names ih =>
    rw [List.foldl_cons, ih]
    by_cases hname : other = name
    · subst hname
      simp
    · simp only [List.mem_cons, hname, false_or, lookup_del_of_ne hname]

end Lemmas

end Header

/-! ### Names -/

/-- A character of a header name. -/
def isTokenChar (ch : Char) : Bool :=
  ch.isAlphanum || "!#$%&'*+-.^_`|~".toList.contains ch

/-- Upper case at the start and after each dash, lower case elsewhere. -/
def canonicalChars (upper : Bool) : List Char → List Char
  | [] => []
  | ch :: rest =>
    (if upper then ch.toUpper else ch.toLower) :: canonicalChars (ch == '-') rest

/-- The name as the header has it; what is no name stays as it is. -/
def canonicalKey (name : String) : String :=
  if name.toList.all isTokenChar then String.ofList (canonicalChars true name.toList) else name

def isASCIISpace (ch : Char) : Bool := [' ', '\t', '\n', '\r'].contains ch

def trimString (s : String) : String :=
  String.ofList ((s.toList.dropWhile isASCIISpace).reverse.dropWhile isASCIISpace).reverse

/-- The elements of comma-separated lists, without the empty ones. -/
def elements (lists : List String) : List String :=
  (lists.flatMap fun l => (split l ',').map trimString).filter (· ≠ "")

def connectionNames (K : σ → String) (h : Header σ) : List String :=
  (elements ((h.values "Connection").map (Value.render K))).map canonicalKey

/-- A header that is a list has the element, in whatever case. -/
def containsToken (K : σ → String) (vs : List (Value σ)) (token : String) : Bool :=
  (elements (vs.map (Value.render K))).any fun e =>
    e.toList.map Char.toLower == token.toList.map Char.toLower

theorem connectionNames_congr (K : σ → String) {h h' : Header σ}
    (heq : h.lookup "Connection" = h'.lookup "Connection") :
    connectionNames K h = connectionNames K h' := by
  rw [connectionNames, connectionNames, Header.values_congr heq]

/-! ### What a receiver reads -/

namespace Header

/-- The values that a receiver finds under a name, however it is written. -/
def received (h : Header σ) (name : String) : List (Value σ) :=
  (h.entries.filter fun e => canonicalKey e.1 == name).flatMap (·.2)

def Canonical (h : Header σ) : Prop := ∀ name ∈ h, canonicalKey name = name

variable {h : Header σ} {name : String} {v : Value σ}

theorem Canonical.set (hh : h.Canonical) (hname : canonicalKey name = name) :
    (h.set name v).Canonical := by
  intro other hother
  rcases (AList.mem_insert h).1 hother with rfl | hother
  · exact hname
  · exact hh other hother

theorem Canonical.del (hh : h.Canonical) : (h.del name).Canonical :=
  fun other hother => hh other (AList.mem_erase.1 hother).2

theorem Canonical.foldl_del (hh : h.Canonical) (names : List String) :
    (names.foldl Header.del h).Canonical := by
  induction names generalizing h with
  | nil => exact hh
  | cons name names ih => exact ih hh.del

theorem Canonical.ite {p : Prop} [Decidable p] {h' : Header σ} (hh : h.Canonical)
    (hh' : h'.Canonical) : (if p then h else h').Canonical := by
  split
  · exact hh
  · exact hh'

private theorem flatMap_filter_eq_dlookup {l : List (Sigma fun _ : String => List (Value σ))}
    (hl : l.NodupKeys) (name : String) :
    (l.filter fun e => e.1 == name).flatMap (·.2) = (l.dlookup name).getD [] := by
  induction l with
  | nil => rfl
  | cons e l ih =>
    obtain ⟨key, vs⟩ := e
    obtain ⟨hkey, hl⟩ := List.nodupKeys_cons.1 hl
    by_cases hname : key = name
    · subst hname
      have hnone : l.dlookup key = none := List.dlookup_eq_none.2 hkey
      rw [List.filter_cons_of_pos (by simp), List.flatMap_cons, ih hl, List.dlookup_cons_eq, hnone]
      simp
    · rw [List.filter_cons_of_neg (by simpa using hname), ih hl,
        List.dlookup_cons_ne _ _ (Ne.symm hname)]

/-- In canonical case there is nothing but the header of that name. -/
theorem Canonical.received_eq (hh : h.Canonical) (name : String) :
    h.received name = h.values name := by
  have hfilter : (h.entries.filter fun e => canonicalKey e.1 == name) =
      h.entries.filter fun e => e.1 == name := by
    refine List.filter_congr fun e he => ?_
    rw [hh e.1 (AList.mem_keys.2 (List.mem_keys_of_mem he))]
  rw [received, hfilter, flatMap_filter_eq_dlookup h.nodupKeys, values, AList.lookup]

end Header

/-! ### The proxy -/

def hopHeaders : List String :=
  ["Connection", "Proxy-Connection", "Keep-Alive", "Proxy-Authenticate", "Proxy-Authorization",
    "Te", "Trailer", "Transfer-Encoding", "Upgrade"]

def removeHopByHopHeaders (K : σ → String) (h : Header σ) : Header σ :=
  hopHeaders.foldl Header.del ((connectionNames K h).foldl Header.del h)

def upgradeType (K : σ → String) (h : Header σ) : Value σ :=
  if containsToken K (h.values "Connection") "Upgrade" then h.get "Upgrade" else []

def joinValues : List (Value σ) → Value σ
  | [] => []
  | [v] => v
  | v :: vs => v ++ .text ", " :: joinValues vs

def isPrint (s : String) : Bool := s.toList.all fun ch => ' ' ≤ ch && ch ≤ '~'

/-- The backend is told that trailers are supported, if the client has asked for them. -/
def addTrailers (K : σ → String) (asked : List (Value σ)) (h : Header σ) : Header σ :=
  if containsToken K asked "trailers" then h.set "Te" (.ofText "trailers") else h

/-- What an upgrade needs is put back. -/
def addUpgrade (K : σ → String) (upgrade : Value σ) (h : Header σ) : Header σ :=
  if upgrade.render K = "" then h
  else (h.set "Connection" (.ofText "Upgrade")).set "Upgrade" upgrade

/-- The address of the client is added to those of the clients before. -/
def addForwardedFor (remote : String) (h : Header σ) : Header σ :=
  h.set "X-Forwarded-For" (joinValues (h.values "X-Forwarded-For" ++ [.ofText remote]))

/-- The header a proxy sends: `director` edits first, and then the proxy does. `remote` is the
address of the client; the request is refused if the upgrade it asks for cannot be printed. -/
def reverseProxy (K : σ → String) (remote : String) (director : Header σ → Header σ)
    (h : Header σ) : Option (Header σ) :=
  let directed := director h
  let upgrade := upgradeType K directed
  if !isPrint (upgrade.render K) then none
  else some (addForwardedFor remote (addUpgrade K upgrade
    (addTrailers K (h.values "Te") (removeHopByHopHeaders K directed))))

section Proxy

variable {K : σ → String} {remote : String} {director : Header σ → Header σ} {h out : Header σ}
  {name : String}

theorem lookup_removeHopByHopHeaders (K : σ → String) (h : Header σ) (name : String) :
    (removeHopByHopHeaders K h).lookup name =
      if name ∈ hopHeaders ∨ name ∈ connectionNames K h then none else h.lookup name := by
  rw [removeHopByHopHeaders, Header.lookup_foldl_del, Header.lookup_foldl_del]
  by_cases hhop : name ∈ hopHeaders
  · simp [hhop]
  · simp [hhop]

def ownHeaders : List String := ["Te", "Connection", "Upgrade", "X-Forwarded-For"]

private theorem eq_of_reverseProxy (hout : reverseProxy K remote director h = some out) :
    out = addForwardedFor remote (addUpgrade K (upgradeType K (director h))
      (addTrailers K (h.values "Te") (removeHopByHopHeaders K (director h)))) := by
  simp only [reverseProxy] at hout
  split at hout
  · cases hout
  · exact (Option.some.inj hout).symm

theorem lookup_addTrailers (hname : name ≠ "Te") {asked : List (Value σ)} :
    (addTrailers K asked h).lookup name = h.lookup name := by
  unfold addTrailers
  split
  · exact Header.lookup_set_of_ne hname
  · rfl

theorem lookup_addUpgrade (hconn : name ≠ "Connection") (hup : name ≠ "Upgrade")
    {upgrade : Value σ} : (addUpgrade K upgrade h).lookup name = h.lookup name := by
  unfold addUpgrade
  split
  · rfl
  · rw [Header.lookup_set_of_ne hup, Header.lookup_set_of_ne hconn]

/-- **What the client lists is removed**, whoever has set it; other headers arrive as the
director has left them. -/
theorem lookup_reverseProxy (hout : reverseProxy K remote director h = some out)
    (hname : name ∉ ownHeaders) : out.lookup name =
      if name ∈ hopHeaders ∨ name ∈ connectionNames K (director h) then none
      else (director h).lookup name := by
  simp only [ownHeaders, List.mem_cons, List.not_mem_nil, or_false, not_or] at hname
  obtain ⟨hte, hconn, hup, hfor⟩ := hname
  rw [eq_of_reverseProxy hout, addForwardedFor, Header.lookup_set_of_ne hfor,
    lookup_addUpgrade hconn hup, lookup_addTrailers hte, lookup_removeHopByHopHeaders]

theorem render_get_of_reverseProxy (hout : reverseProxy K remote director h = some out)
    (hname : name ∉ ownHeaders) {s : String}
    (hset : (director h).lookup name = some [Value.ofText s]) :
    (out.get name).render K = s ∨ (out.get name).render K = "" := by
  have hlookup := lookup_reverseProxy hout hname
  unfold Header.get Header.values
  split at hlookup
  · right
    rw [hlookup]
    rfl
  · left
    rw [hlookup, hset]
    rfl

/-- `Connection` leaves a proxy as it should be, or not at all. -/
theorem connectionNames_reverseProxy (hout : reverseProxy K remote director h = some out) :
    connectionNames K out = [] ∨ connectionNames K out = ["Upgrade"] := by
  have hlookup : out.lookup "Connection" = none ∨
      out.lookup "Connection" = some [Value.ofText "Upgrade"] := by
    rw [eq_of_reverseProxy hout, addForwardedFor, Header.lookup_set_of_ne (by decide), addUpgrade]
    split
    · left
      rw [lookup_addTrailers (by decide), lookup_removeHopByHopHeaders, if_pos (.inl (by decide))]
    · right
      rw [Header.lookup_set_of_ne (by decide), Header.lookup_set_self]
  rcases hlookup with hlookup | hlookup
  · left
    rw [connectionNames, Header.values, hlookup]
    rfl
  · right
    have hrender : (Value.ofText "Upgrade").render K = "Upgrade" := rfl
    rw [connectionNames, Header.values, hlookup, Option.getD_some, List.map_singleton, hrender]
    decide

private theorem carries_joinValues {k : σ} {vs : List (Value σ)}
    (hk : (joinValues vs).Carries k) : ∃ v ∈ vs, v.Carries k := by
  induction vs with
  | nil => cases hk
  | cons v vs ih =>
    cases vs with
    | nil => exact ⟨v, List.mem_cons_self, hk⟩
    | cons w vs =>
      rcases List.mem_append.1 hk with hk | hk
      · exact ⟨v, List.mem_cons_self, hk⟩
      · rcases List.mem_cons.1 hk with hk | hk
        · cases hk
        · obtain ⟨u, hu, hk⟩ := ih hk
          exact ⟨u, List.mem_cons_of_mem _ hu, hk⟩

private theorem mem_removeHopByHopHeaders {v : Value σ}
    (hv : v ∈ (removeHopByHopHeaders K h).values name) :
    v ∈ h.values name ∧ name ∉ hopHeaders ∧ name ∉ connectionNames K h := by
  rw [Header.values, lookup_removeHopByHopHeaders] at hv
  split at hv
  · cases hv
  · rename_i hkept
    exact ⟨hv, not_or.1 hkept⟩

private theorem carries_upgradeType {k : σ} (hk : (upgradeType K h).Carries k) :
    ∃ v ∈ h.values "Upgrade", v.Carries k := by
  unfold upgradeType at hk
  split at hk
  · unfold Header.get at hk
    cases hvs : h.values "Upgrade" with
    | nil =>
      rw [hvs] at hk
      cases hk
    | cons v vs =>
      rw [hvs] at hk
      exact ⟨v, List.mem_cons_self, hk⟩
  · cases hk

private theorem mem_addTrailers {asked : List (Value σ)} {k : σ} {v : Value σ}
    (hv : v ∈ (addTrailers K asked h).values name) (hk : v.Carries k) : v ∈ h.values name := by
  unfold addTrailers at hv
  split at hv
  · rcases Header.mem_values_set hv with ⟨-, rfl⟩ | ⟨-, hv⟩
    · exact absurd hk Value.not_carries_ofText
    · exact hv
  · exact hv

private theorem mem_addUpgrade {upgrade : Value σ} {k : σ} {v : Value σ}
    (hv : v ∈ (addUpgrade K upgrade h).values name) (hk : v.Carries k) :
    name = "Upgrade" ∧ v = upgrade ∨ v ∈ h.values name := by
  unfold addUpgrade at hv
  split at hv
  · exact .inr hv
  · rcases Header.mem_values_set hv with hup | ⟨-, hv⟩
    · exact .inl hup
    · rcases Header.mem_values_set hv with ⟨-, rfl⟩ | ⟨-, hv⟩
      · exact absurd hk Value.not_carries_ofText
      · exact .inr hv

private theorem carries_addForwardedFor {k : σ} {v : Value σ}
    (hv : v ∈ (addForwardedFor remote h).values name) (hk : v.Carries k) :
    ∃ w ∈ h.values name, w.Carries k := by
  rcases Header.mem_values_set hv with ⟨rfl, rfl⟩ | ⟨-, hv⟩
  · obtain ⟨w, hw, hwk⟩ := carries_joinValues hk
    rcases List.mem_append.1 hw with hw | hw
    · exact ⟨w, hw, hwk⟩
    · rw [List.mem_singleton.1 hw] at hwk
      exact absurd hwk Value.not_carries_ofText
  · exact ⟨v, hv, hk⟩

theorem canonical_of_reverseProxy (hout : reverseProxy K remote director h = some out)
    (hdir : (director h).Canonical) : out.Canonical := by
  rw [eq_of_reverseProxy hout]
  have hrest : (addTrailers K (h.values "Te")
      (removeHopByHopHeaders K (director h))).Canonical := by
    unfold addTrailers
    split
    · exact ((hdir.foldl_del _).foldl_del _).set (by decide)
    · exact (hdir.foldl_del _).foldl_del _
  unfold addForwardedFor addUpgrade
  split
  · exact hrest.set (by decide)
  · exact ((hrest.set (by decide)).set (by decide)).set (by decide)

/-- **No secret is added.** A secret that a proxy sends in some header was in that header before,
and the header is `Upgrade`, or it is neither hop-by-hop nor listed in `Connection`. -/
theorem carries_of_reverseProxy (hout : reverseProxy K remote director h = some out) {k : σ}
    {v : Value σ} (hv : v ∈ out.values name) (hk : v.Carries k) :
    (∃ w ∈ (director h).values name, w.Carries k) ∧
      (name = "Upgrade" ∨ name ∉ hopHeaders ∧ name ∉ connectionNames K (director h)) := by
  rw [eq_of_reverseProxy hout] at hv
  obtain ⟨w, hw, hwk⟩ := carries_addForwardedFor hv hk
  rcases mem_addUpgrade hw hwk with ⟨rfl, rfl⟩ | hw
  · exact ⟨carries_upgradeType hwk, .inl rfl⟩
  · obtain ⟨hw, hkept⟩ := mem_removeHopByHopHeaders (mem_addTrailers hw hwk)
    exact ⟨⟨w, hw, hwk⟩, .inr hkept⟩

end Proxy

end Http
