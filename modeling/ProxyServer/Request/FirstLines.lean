import ProxyServer.Request.Lines
import ProxyServer.Util.Numbers

/-!
# First lines

What the constructors of `request_line` and `response_line` read from a line with
two blanks. `normalises_iff` says for which targets the printed request line names
the target that was asked for, `status_kept_iff` which status lines are kept.
-/

namespace ProxyServer

/-- A line of three words. The third one may have blanks of its own. -/
def threeWords (a b c : Bytes) : Bytes := a ++ SPACE :: (b ++ SPACE :: c)

namespace threeWords

variable {a b c : Bytes}

theorem eq_print (a b c : Bytes) : a ++ lit " " ++ b ++ lit " " ++ c = threeWords a b c := by
  have blank : lit " " = [SPACE] := rfl
  simp [threeWords, blank]

theorem length_eq (a b c : Bytes) : (threeWords a b c).length = a.length + 1 + b.length + 1 + c.length := by
  simp [threeWords]
  omega

theorem inj_middle {b' : Bytes} (same : threeWords a b c = threeWords a b' c) : b = b' := by
  have tails : b ++ SPACE :: c = b' ++ SPACE :: c := by simpa [threeWords] using same
  exact List.append_cancel_right tails

theorem find_first (clear : SPACE ∉ a) : find (threeWords a b c) SPACE 0 = a.length := by
  have found : find (threeWords a b c) SPACE 0 = 0 + a.length := find_split (p := []) rfl rfl clear
  rw [found, Nat.zero_add]

theorem find_second (clear : SPACE ∉ b) :
    find (threeWords a b c) SPACE (a.length + 1) = a.length + 1 + b.length := by
  apply find_split (p := a ++ [SPACE]) (r := c)
  · simp [threeWords]
  · simp
  · exact clear

theorem drop_first (a b c : Bytes) : (threeWords a b c).drop (a.length + 1) = b ++ SPACE :: c := by
  rw [threeWords, ← List.drop_drop, List.drop_left]
  rfl

theorem drop_second (a b c : Bytes) : (threeWords a b c).drop (a.length + 1 + b.length + 1) = c := by
  rw [Nat.add_assoc _ b.length, ← List.drop_drop, drop_first, ← List.drop_drop, List.drop_left]
  rfl

theorem substr_first (a b c : Bytes) : substr (threeWords a b c) 0 a.length = .ok a := by
  rw [substr_ok _ (Nat.zero_le _), List.drop_zero, threeWords, List.take_left]

theorem substr_second (a b c : Bytes) : substr (threeWords a b c) (a.length + 1) b.length = .ok b := by
  rw [substr_ok _ (by rw [length_eq]; omega), drop_first, List.take_left]

theorem substr_third (a b c : Bytes) {len : Nat} (enough : c.length ≤ len) :
    substr (threeWords a b c) (a.length + 1 + b.length + 1) len = .ok c := by
  rw [substr_ok _ (by rw [length_eq]; omega), drop_second, List.take_of_length_le enough]

end threeWords

/-! ### Request lines -/

namespace RequestLine

variable {method target version : Bytes}

theorem print_eq (l : RequestLine) : l.print = threeWords l.type l.url l.http ++ crlf := by
  unfold print
  rw [threeWords.eq_print]

/-- Where the constructor looks for the address of a target that is no path. -/
def pathStart (method target version : Bytes) : Nat :=
  let line := threeWords method target version
  find line SLASH (addSize (find line COLON (method.length + 1)) 3)

theorem parse_threeWords (methodClear : SPACE ∉ method) (targetClear : SPACE ∉ target)
    (short : (threeWords method target version).length < npos) :
    parse (threeWords method target version) =
      (if target.head? = some SLASH then .ok target
       else substr (threeWords method target version) (pathStart method target version)
        (subSize (method.length + 1 + target.length) (pathStart method target version))).map
        fun url => { type := method, url, http := version } := by
  have size := threeWords.length_eq method target version
  have range := npos_lt short
  have slash : charAt (threeWords method target version) (method.length + 1) = SLASH ↔
      target.head? = some SLASH := by
    rw [charAt_drop, threeWords.drop_first]
    cases target with
    | nil => simp [SPACE, SLASH]
    | cons b rest => simp
  have third := threeWords.substr_third method target version (Nat.le_refl version.length)
  have first : addSize method.length 1 = method.length + 1 := addSize_eq (by omega)
  have second : addSize (method.length + 1 + target.length) 1 = method.length + 1 + target.length + 1 :=
    addSize_eq (by omega)
  have rest : subSize (threeWords method target version).length (method.length + 1 + target.length + 1) =
      version.length := by
    rw [subSize_eq (by omega) (by omega)]
    omega
  unfold parse
  simp only [threeWords.find_first methodClear, first, threeWords.find_second targetClear, second,
    threeWords.substr_first, rest, third, bind, Except.bind, pure, Except.pure]
  by_cases path : target.head? = some SLASH
  · have here : subSize (method.length + 1 + target.length) (method.length + 1) = target.length := by
      rw [subSize_eq (by omega) (by omega)]
      omega
    rw [if_neg (not_not_intro (slash.mpr path)), if_pos path, here, threeWords.substr_second]
    rfl
  · rw [if_pos (fun s => path (slash.mp s)), if_neg path]
    unfold pathStart
    dsimp only
    generalize substr _ _ _ = url
    cases url with
    | error e => rfl
    | ok url => rfl

/-- A target that is no path is read from a '/' on: there is none in it to read, or it
is not the first byte. -/
theorem parse_indirect {l : RequestLine} (methodClear : SPACE ∉ method) (targetClear : SPACE ∉ target)
    (short : (threeWords method target version).length < npos) (indirect : target.head? ≠ some SLASH)
    (read : parse (threeWords method target version) = .ok l) :
    l.type = method ∧ l.http = version ∧ l.url.head? = some SLASH := by
  have slash := url_slash short read
  rw [parse_threeWords methodClear targetClear short, if_neg indirect] at read
  obtain ⟨url, _, rfl⟩ := Runs.map_ok.mp read
  exact ⟨rfl, rfl, slash⟩

end RequestLine

/-! ### Targets -/

def QUESTION : UInt8 := 63

def IsVersion (v : Bytes) : Prop :=
  ∃ a b, isDigit a = true ∧ isDigit b = true ∧ v = lit "HTTP/" ++ [a, 46, b]

/-- What a client may ask for. The path and the query of an absolute address may be
missing; the query starts with its '?'. -/
inductive Target where
  | origin (path : Bytes)
  | asterisk
  | authority (host : Bytes)
  | absolute (scheme host path query : Bytes)
  deriving DecidableEq, Repr

namespace Target

def text : Target → Bytes
  | origin path => SLASH :: path
  | asterisk => lit "*"
  | authority host => host
  | absolute scheme host path query => scheme ++ (lit "://" ++ (host ++ (path ++ query)))

/-- The target that an origin server is to be asked for. -/
def normal : Target → Bytes
  | origin path => SLASH :: path
  | asterisk => lit "*"
  | authority host => host
  | absolute _ _ path query => (if path = [] then [SLASH] else path) ++ query

def WellFormed : Target → Prop
  | origin path => SPACE ∉ path
  | asterisk => True
  | authority host => host ≠ [] ∧ SPACE ∉ host ∧ SLASH ∉ host
  | absolute scheme host path query =>
    (scheme ≠ [] ∧ SPACE ∉ scheme ∧ COLON ∉ scheme ∧ SLASH ∉ scheme) ∧
    (SPACE ∉ host ∧ SLASH ∉ host ∧ QUESTION ∉ host) ∧
    (SPACE ∉ path ∧ QUESTION ∉ path ∧ (path = [] ∨ path.head? = some SLASH)) ∧
    (SPACE ∉ query ∧ (query = [] ∨ query.head? = some QUESTION))

/-- The target is a path, or an address with one. -/
def HasPath : Target → Prop
  | origin _ => True
  | asterisk => False
  | authority _ => False
  | absolute _ _ path _ => path ≠ []

instance (t : Target) : Decidable t.WellFormed := by
  cases t <;> (unfold WellFormed; infer_instance)

instance (t : Target) : Decidable t.HasPath := by
  cases t <;> (unfold HasPath; infer_instance)

theorem text_clear {t : Target} (wellFormed : t.WellFormed) : SPACE ∉ t.text := by
  cases t with
  | origin path =>
    intro member
    rcases List.mem_cons.mp member with same | later
    · simp [SPACE, SLASH] at same
    · exact wellFormed later
  | asterisk => decide
  | authority host => exact wellFormed.2.1
  | absolute scheme host path query =>
    obtain ⟨⟨-, scheme, -⟩, ⟨host, -⟩, ⟨path, -⟩, ⟨query, -⟩⟩ := wellFormed
    have between : SPACE ∉ lit "://" := by decide
    simp only [text, List.mem_append, not_or]
    exact ⟨scheme, between, host, path, query⟩

end Target

namespace RequestLine

variable {method version : Bytes} {t : Target}

/-- Parsing the line and printing it asks for the target in its normal form. -/
def Normalises (method : Bytes) (t : Target) (version : Bytes) : Prop :=
  (parse (threeWords method t.text version)).map print = .ok (threeWords method t.normal version ++ crlf)

theorem normalises_of_parse (read : parse (threeWords method t.text version) =
    .ok { type := method, url := t.normal, http := version }) : Normalises method t version := by
  unfold Normalises
  rw [read]
  show Except.ok (print _) = _
  rw [print_eq]

theorem normalises_url {url : Bytes} (read : parse (threeWords method t.text version) =
    .ok { type := method, url, http := version }) (normalises : Normalises method t version) : url = t.normal := by
  unfold Normalises at normalises
  rw [read] at normalises
  have printed : print { type := method, url, http := version } = threeWords method t.normal version ++ crlf :=
    Except.ok.inj normalises
  rw [print_eq] at printed
  exact threeWords.inj_middle (List.append_cancel_right printed)

theorem text_short (short : (threeWords method t.text version).length < npos) :
    t.text.length + 2 < SIZE_RANGE := by
  have size := threeWords.length_eq method t.text version
  have range := npos_lt short
  omega

theorem not_normalises (methodClear : SPACE ∉ method) (targetClear : SPACE ∉ t.text)
    (short : (threeWords method t.text version).length < npos) (noSlash : SLASH ∉ t.text)
    (same : t.normal = t.text) : ¬Normalises method t version := by
  intro normalises
  have indirect : t.text.head? ≠ some SLASH := fun head => noSlash (List.mem_of_head? head)
  cases read : parse (threeWords method t.text version) with
  | error e =>
    unfold Normalises at normalises
    rw [read] at normalises
    cases normalises
  | ok l =>
    obtain ⟨type, url, http⟩ := l
    obtain ⟨rfl, rfl, slash⟩ := parse_indirect methodClear targetClear short indirect read
    rw [normalises_url read normalises, same] at slash
    exact indirect slash

theorem subSize_shift (base x y : Nat) : subSize (base + x) (base + y) = subSize x y := by
  unfold subSize SIZE_RANGE
  omega

/-- An absolute address is read from the first '/' behind its host, wherever that is. -/
theorem parse_absolute {scheme host q l r : Bytes} (methodClear : SPACE ∉ method)
    (targetClear : SPACE ∉ scheme ++ (lit "://" ++ (host ++ q))) (colon : COLON ∉ scheme)
    (slash : SLASH ∉ scheme) (hostClear : SLASH ∉ host)
    (short : (threeWords method (scheme ++ (lit "://" ++ (host ++ q))) version).length < npos)
    (shape : q ++ SPACE :: version = l ++ SLASH :: r) (before : SLASH ∉ l) :
    parse (threeWords method (scheme ++ (lit "://" ++ (host ++ q))) version) =
      .ok { type := method, url := (SLASH :: r).take (subSize q.length l.length), http := version } := by
  have between : lit "://" = [COLON, SLASH, SLASH] := rfl
  have tail := congrArg List.length shape
  simp only [List.length_append, List.length_cons] at tail
  have size : (threeWords method (scheme ++ (lit "://" ++ (host ++ q))) version).length =
      method.length + 1 + (scheme.length + 3 + host.length + q.length) + 1 + version.length := by
    rw [threeWords.length_eq]
    simp [between]
    omega
  have range := npos_lt short
  have indirect : (scheme ++ (lit "://" ++ (host ++ q))).head? ≠ some SLASH := by
    cases scheme with
    | nil => simp [between, COLON, SLASH]
    | cons b scheme =>
      intro head
      have same : b = SLASH := by simpa using head
      exact slash (by simp [same])
  have line : threeWords method (scheme ++ (lit "://" ++ (host ++ q))) version =
      (method ++ SPACE :: (scheme ++ COLON :: SLASH :: SLASH :: host)) ++ (l ++ SLASH :: r) := by
    rw [← shape]
    simp [threeWords, between]
  have atColon : find (threeWords method (scheme ++ (lit "://" ++ (host ++ q))) version) COLON
      (method.length + 1) = method.length + 1 + scheme.length := by
    apply find_split (p := method ++ [SPACE]) (r := SLASH :: SLASH :: (host ++ (q ++ SPACE :: version)))
    · simp [threeWords, between]
    · simp
    · exact colon
  have start : pathStart method (scheme ++ (lit "://" ++ (host ++ q))) version =
      method.length + 1 + scheme.length + 3 + host.length + l.length := by
    unfold pathStart
    dsimp only
    rw [atColon, addSize_eq (by omega), Nat.add_assoc _ host.length, ← List.length_append]
    apply find_split (p := method ++ SPACE :: (scheme ++ [COLON, SLASH, SLASH])) (r := r)
    · rw [line]
      simp
    · simp
      omega
    · rw [List.mem_append, not_or]
      exact ⟨hostClear, before⟩
  have taken : (threeWords method (scheme ++ (lit "://" ++ (host ++ q))) version).drop
      (method.length + 1 + scheme.length + 3 + host.length + l.length) = SLASH :: r := by
    rw [line, ← List.append_assoc]
    apply List.drop_left'
    simp
    omega
  have stop : method.length + 1 + (scheme ++ (lit "://" ++ (host ++ q))).length =
      method.length + 1 + scheme.length + 3 + host.length + q.length := by
    simp [between]
    omega
  rw [parse_threeWords methodClear targetClear short, if_neg indirect, start, stop]
  rw [subSize_shift, substr_ok _ (by omega), taken]
  rfl

theorem normalises_path {scheme host path query : Bytes} (methodClear : SPACE ∉ method)
    (wellFormed : (Target.absolute scheme host path query).WellFormed) (present : path ≠ [])
    (short : (threeWords method (Target.absolute scheme host path query).text version).length < npos) :
    Normalises method (.absolute scheme host path query) version := by
  have clear := Target.text_clear wellFormed
  obtain ⟨⟨-, -, colon, slash⟩, ⟨-, hostClear, -⟩, ⟨-, -, rooted⟩, -⟩ := wellFormed
  obtain ⟨b, p, rfl⟩ := List.exists_cons_of_ne_nil present
  obtain rfl : b = SLASH := by simpa using rooted
  have size := text_short short
  simp only [Target.text, List.length_append, List.length_cons] at size
  apply normalises_of_parse
  have whole : subSize (SLASH :: p ++ query).length (List.length ([] : Bytes)) = (SLASH :: p ++ query).length := by
    rw [List.length_nil, subSize_eq (Nat.zero_le _) (by simp only [List.length_append, List.length_cons]; omega),
      Nat.sub_zero]
  rw [Target.text, parse_absolute (r := p ++ (query ++ SPACE :: version)) methodClear clear colon slash hostClear short
    (by simp) List.not_mem_nil, whole]
  have taken : (SLASH :: (p ++ (query ++ SPACE :: version))).take (SLASH :: p ++ query).length = SLASH :: p ++ query := by
    have split : SLASH :: (p ++ (query ++ SPACE :: version)) = (SLASH :: p ++ query) ++ SPACE :: version := by simp
    rw [split, List.take_left]
  rw [taken]
  simp [Target.normal]

theorem not_normalises_bare {scheme host query : Bytes} (methodClear : SPACE ∉ method) (isVersion : IsVersion version)
    (wellFormed : (Target.absolute scheme host [] query).WellFormed)
    (short : (threeWords method (Target.absolute scheme host [] query).text version).length < npos) :
    ¬Normalises method (.absolute scheme host [] query) version := by
  intro normalises
  have clear := Target.text_clear wellFormed
  obtain ⟨⟨-, -, colon, slash⟩, ⟨-, hostClear, -⟩, -, -, question⟩ := wellFormed
  have expected : (Target.absolute scheme host [] query).normal = SLASH :: query := by simp [Target.normal]
  by_cases member : SLASH ∈ query
  · obtain ⟨l, r, rfl, before⟩ := List.eq_append_cons_of_mem member
    have read := parse_absolute (q := l ++ SLASH :: r) (r := r ++ SPACE :: version) methodClear clear colon slash
      hostClear short (by simp) before
    have sizes := congrArg List.length (normalises_url (t := .absolute scheme host [] (l ++ SLASH :: r)) read normalises)
    have size := text_short short
    simp only [Target.text, List.length_append, List.length_cons] at size
    rw [expected, List.length_take] at sizes
    simp only [List.length_append, List.length_cons] at sizes
    rw [subSize_eq (by omega) (by omega)] at sizes
    omega
  · obtain ⟨a, b, digit, -, rfl⟩ := isVersion
    have before : SLASH ∉ query ++ SPACE :: lit "HTTP" := by
      have word : SLASH ∉ SPACE :: lit "HTTP" := by decide
      rw [List.mem_append, not_or]
      exact ⟨member, word⟩
    have version_eq : lit "HTTP/" ++ [a, 46, b] = lit "HTTP" ++ SLASH :: [a, 46, b] := rfl
    have read := parse_absolute (q := query) (r := [a, 46, b]) methodClear clear colon slash hostClear short
      (by rw [version_eq]; simp) before
    have url := normalises_url (t := .absolute scheme host [] query) read normalises
    rw [expected] at url
    have far : 4 ≤ subSize query.length (query ++ SPACE :: lit "HTTP").length := by
      have word : (lit "HTTP").length = 4 := rfl
      have size := text_short short
      simp only [Target.text, List.length_append] at size
      rw [List.length_append, List.length_cons, word]
      unfold subSize SIZE_RANGE at *
      omega
    rw [List.take_of_length_le far] at url
    -- The digit behind the '/' of the version is no '?'.
    obtain rfl : query = [a, 46, b] := by simpa using url.symm
    rcases question with empty | mark
    · cases empty
    · obtain rfl : a = QUESTION := by simpa using mark
      exact absurd digit (by decide)

/-- A request line keeps what its target asks for exactly when the target has a path. -/
theorem normalises_iff (method : Bytes) (t : Target) (version : Bytes) (methodWord : method ≠ [] ∧ SPACE ∉ method ∧ CR ∉ method)
    (wellFormed : t.WellFormed) (isVersion : IsVersion version)
    (short : (threeWords method t.text version).length < npos) :
    Normalises method t version ↔ t.HasPath := by
  have clear := Target.text_clear wellFormed
  cases t with
  | origin path =>
    apply iff_of_true _ trivial
    apply normalises_of_parse
    rw [parse_threeWords methodWord.2.1 clear short]
    rfl
  | asterisk => exact iff_of_false (not_normalises methodWord.2.1 clear short (by decide) rfl) not_false
  | authority host =>
    exact iff_of_false (not_normalises methodWord.2.1 clear short wellFormed.2.2 rfl) not_false
  | absolute scheme host path query =>
    by_cases present : path = []
    · subst present
      exact iff_of_false (not_normalises_bare methodWord.2.1 isVersion wellFormed short) (fun h => h rfl)
    · exact iff_of_true (normalises_path methodWord.2.1 wellFormed present short) present

theorem absolute_normalised : Normalises (lit "GET") (.absolute (lit "http") (lit "h:80") (lit "/a") (lit "?b=/")) (lit "HTTP/1.1") :=
  (normalises_iff (lit "GET") (.absolute (lit "http") (lit "h:80") (lit "/a") (lit "?b=/")) (lit "HTTP/1.1")
    (by decide) (by decide) ⟨49, 49, by decide, by decide, by decide⟩ (by decide)).mpr (by decide)

theorem asterisk_lost : ¬Normalises (lit "OPTIONS") .asterisk (lit "HTTP/1.1") := by
  unfold Normalises
  decide

end RequestLine

/-! ### Status lines -/

namespace ResponseLine

variable {http reason : Bytes} {code : Int}

theorem print_eq (l : ResponseLine) : l.print = threeWords l.http (intToString l.code) l.description ++ crlf := by
  unfold print
  rw [threeWords.eq_print]

theorem code_clear (code : Int) : SPACE ∉ intToString code := intToString_clear (by decide) (by decide)

theorem parse_threeWords (clear : SPACE ∉ http) (low : -2 ^ 31 ≤ code) (high : code < 2 ^ 31)
    (short : (threeWords http (intToString code) reason).length < npos) :
    parse (threeWords http (intToString code) reason) = .ok { code, description := reason, http } := by
  have size := threeWords.length_eq http (intToString code) reason
  have range := npos_lt short
  have codeClear := code_clear code
  have first : addSize http.length 1 = http.length + 1 := addSize_eq (by omega)
  have second : addSize (http.length + 1 + (intToString code).length) 1 = http.length + 1 + (intToString code).length + 1 :=
    addSize_eq (by omega)
  have word : subSize (http.length + 1 + (intToString code).length) (http.length + 1) = (intToString code).length := by
    rw [subSize_eq (by omega) (by omega)]
    omega
  have rest : subSize (threeWords http (intToString code) reason).length (http.length + 1 + (intToString code).length + 1) =
      reason.length := by
    rw [subSize_eq (by omega) (by omega)]
    omega
  have third := threeWords.substr_third http (intToString code) reason (Nat.le_refl reason.length)
  unfold parse
  simp only [threeWords.find_first clear, first, threeWords.find_second codeClear, second,
    threeWords.substr_first, word, threeWords.substr_second, stoi_intToString low high, rest, third, bind,
    Except.bind, pure, Except.pure]

/-- A line of two words is its own description: behind the code `npos + 1` is 0. -/
theorem parse_twoWords (clear : SPACE ∉ http) (low : -2 ^ 31 ≤ code) (high : code < 2 ^ 31)
    (short : (http ++ SPACE :: intToString code).length < npos) :
    parse (http ++ SPACE :: intToString code) =
      .ok { code, description := http ++ SPACE :: intToString code, http } := by
  have range := npos_lt short
  have size : (http ++ SPACE :: intToString code).length = http.length + 1 + (intToString code).length := by
    simp
    omega
  have found : find (http ++ SPACE :: intToString code) SPACE 0 = 0 + http.length :=
    find_split (p := []) (r := intToString code) rfl rfl clear
  rw [Nat.zero_add] at found
  have first : addSize http.length 1 = http.length + 1 := addSize_eq (by omega)
  have tail : (http ++ SPACE :: intToString code).drop (http.length + 1) = intToString code := by
    rw [← List.drop_drop, List.drop_left]
    rfl
  have none_left : SPACE ∉ (http ++ SPACE :: intToString code).drop (http.length + 1) := by
    rw [tail]
    exact code_clear code
  have start : http.length + 1 ≤ (http ++ SPACE :: intToString code).length := by omega
  have word := substr_find (c := SPACE) short start
  rw [tail, before_absent (code_clear code), find_absent none_left] at word
  have again : addSize npos 1 = 0 := by decide
  have all : subSize (http ++ SPACE :: intToString code).length 0 = (http ++ SPACE :: intToString code).length := by
    rw [subSize_eq (Nat.zero_le _) (by omega), Nat.sub_zero]
  unfold parse
  simp only [found, first, find_absent none_left, word, stoi_intToString low high, again, all,
    substr_ok _ (Nat.zero_le _), List.drop_zero, List.take_left, List.take_length, bind, Except.bind, pure,
    Except.pure]

/-- A status line, with or without a reason. -/
def statusText (http : Bytes) (code : Int) : Option Bytes → Bytes
  | some reason => threeWords http (intToString code) reason
  | none => http ++ SPACE :: intToString code

/-- The line is printed as it was read, but for a blank behind a code without a
reason, and what is printed is read as the same line. -/
def Kept (http : Bytes) (code : Int) (reason : Option Bytes) : Prop :=
  ∃ l printed, parse (statusText http code reason) = .ok l ∧ l.print = printed ++ crlf ∧
    (printed = statusText http code reason ∨ reason = none ∧ printed = statusText http code reason ++ [SPACE]) ∧
    parse printed = .ok l

/-- A status line is kept exactly when a blank follows its code. -/
theorem status_kept_iff (http : Bytes) (code : Int) (reason : Option Bytes) (httpWord : SPACE ∉ http)
    (threeDigits : 100 ≤ code ∧ code ≤ 999) (short : (statusText http code reason).length < npos) :
    Kept http code reason ↔ reason.isSome = true := by
  cases reason with
  | some reason =>
    have read : parse (threeWords http (intToString code) reason) = .ok { code, description := reason, http } :=
      parse_threeWords httpWord (by omega) (by omega) short
    exact iff_of_true ⟨_, _, read, print_eq _, Or.inl rfl, read⟩ rfl
  | none =>
    apply iff_of_false _ (by decide)
    intro kept
    obtain ⟨l, printed, read, print, same, -⟩ := kept
    have whole : parse (http ++ SPACE :: intToString code) = .ok l := read
    rw [parse_twoWords httpWord (by omega) (by omega) short] at whole
    cases whole
    rw [print_eq] at print
    obtain rfl := List.append_cancel_right print
    -- What is printed holds the line twice.
    have lengths : (http ++ SPACE :: intToString code).length + 1 <
        (threeWords http (intToString code) (http ++ SPACE :: intToString code)).length := by
      rw [threeWords.length_eq, List.length_append, List.length_cons]
      omega
    rcases same with same | ⟨-, same⟩
    · rw [same] at lengths
      simp only [statusText] at lengths
      omega
    · rw [same] at lengths
      simp only [statusText, List.length_append, List.length_singleton] at lengths
      omega

theorem reason_kept : Kept (lit "HTTP/1.1") 404 (some (lit "Not Found")) :=
  (status_kept_iff (lit "HTTP/1.1") 404 (some (lit "Not Found")) (by decide) (by decide) (by decide)).mpr rfl

theorem bare_code_repeated : (parse (lit "HTTP/1.1 304")).map print = .ok (lit "HTTP/1.1 304 HTTP/1.1 304\r\n") ∧
    ¬Kept (lit "HTTP/1.1") 304 none := by
  constructor
  · decide
  · intro kept
    obtain ⟨l, printed, read, print, same, -⟩ := kept
    have whole : parse (lit "HTTP/1.1 304") = .ok { code := 304, description := lit "HTTP/1.1 304", http := lit "HTTP/1.1" } := by
      decide
    have line : statusText (lit "HTTP/1.1") 304 none = lit "HTTP/1.1 304" := by decide
    rw [line] at read same
    rw [whole] at read
    cases read
    rcases same with rfl | ⟨-, rfl⟩
    · exact absurd print (by decide)
    · exact absurd print (by decide)

end ResponseLine

end ProxyServer
