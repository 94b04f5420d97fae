import OpenGuard.Lib.Text

/-!
# Paths on Windows

`std::path` on Windows: a path has a prefix (a drive, a share of a server, a device, or one of the
verbatim forms, in which only the backslash separates), perhaps a root, and names.

* `parsePrefix`, `components`, `join`: what `Path` makes of any string.
* `parsePrefix_append`: what follows after a separator leaves a prefix that is not verbatim.
* `Lasting`: a prefix that stays the prefix, whatever follows after a backslash; `verbatim_cases` says
  which verbatim prefixes do.
-/

namespace OpenGuard.Lib.WindowsPath

/-! ## Prefixes -/

/-- The kinds of `std::path::Prefix`. -/
inductive PrefixKind where
  | verbatim
  | verbatimUnc
  | verbatimDisk
  | deviceNs
  | unc
  | disk
  deriving DecidableEq, Inhabited

/-- `Prefix::is_verbatim`. -/
def PrefixKind.isVerbatim : PrefixKind → Bool
  | verbatim | verbatimUnc | verbatimDisk => true
  | _ => false

/-- A path that is cut after its prefix. -/
structure Parsed where
  kind : Option PrefixKind
  prefixText : List Char
  rest : List Char
  deriving DecidableEq, Inhabited

/-- Only backslashes separate in verbatim paths. -/
def isBackslash (c : Char) : Bool := c == '\\'

/-- What stands before the first separator, and the rest with it. -/
def nextComponent (separates : Char → Bool) (chars : List Char) : List Char × List Char :=
  (chars.takeWhile fun c => !separates c, chars.dropWhile fun c => !separates c)

/-- After `\\`: a server and a share, neither of them empty. -/
def parseServer (start rest : List Char) : Parsed :=
  let (server, after) := nextComponent isSeparator rest
  match after with
  | [] => ⟨none, [], start ++ rest⟩
  | c :: tail =>
      let (share, left) := nextComponent isSeparator tail
      if server = [] ∨ share = [] then ⟨none, [], start ++ rest⟩
      else ⟨some .unc, start ++ server ++ c :: share, left⟩

/-- After `\\?\UNC\`: a server, and a share unless it is empty. -/
def parseVerbatimUnc (start rest : List Char) : Parsed :=
  let (server, after) := nextComponent isBackslash rest
  match after with
  | [] => ⟨some .verbatimUnc, start ++ server, []⟩
  | c :: tail =>
      let (share, left) := nextComponent isBackslash tail
      if share = [] then ⟨some .verbatimUnc, start ++ server, c :: tail⟩
      else ⟨some .verbatimUnc, start ++ server ++ c :: share, left⟩

/-- After `\\?\`: exactly a drive, or any name. -/
def parseVerbatimName (start rest : List Char) : Parsed :=
  let name := nextComponent isBackslash rest
  let named : Parsed := ⟨some .verbatim, start ++ name.1, name.2⟩
  match rest with
  | letter :: ':' :: left =>
      if letter.isAlpha && left.head?.all isSeparator then
        ⟨some .verbatimDisk, start ++ [letter, ':'], left⟩
      else named
  | _ => named

/-- After `\\?\`. -/
def parseVerbatim (start rest : List Char) : Parsed :=
  match rest with
  | 'U' :: 'N' :: 'C' :: c :: left =>
      if isSeparator c then parseVerbatimUnc (start ++ ['U', 'N', 'C', c]) left
      else parseVerbatimName start rest
  | _ => parseVerbatimName start rest

/-- After two separators. A verbatim prefix is written with backslashes. -/
def parseDouble (a b : Char) (rest : List Char) : Parsed :=
  match rest with
  | '?' :: c :: tail =>
      if isBackslash a && isBackslash b && isBackslash c then parseVerbatim [a, b, '?', c] tail
      else parseServer [a, b] rest
  | '.' :: c :: tail =>
      if isSeparator c then
        let (name, left) := nextComponent isSeparator tail
        ⟨some .deviceNs, [a, b, '.', c] ++ name, left⟩
      else parseServer [a, b] rest
  | _ => parseServer [a, b] rest

/-- `std::sys::path::parse_prefix`. -/
def parsePrefix (path : List Char) : Parsed :=
  match path with
  | a :: b :: rest =>
      if isSeparator a && isSeparator b then parseDouble a b rest
      else if a.isAlpha && b == ':' then ⟨some .disk, [a, b], rest⟩
      else ⟨none, [], path⟩
  | _ => ⟨none, [], path⟩

/-! ## Components -/

/-- `std::path::Component`. -/
inductive PathComponent where
  | prefixed (kind : PrefixKind) (text : List Char)
  | rootDir
  | curDir
  | parentDir
  | normal (name : List Char)
  deriving DecidableEq, Inhabited

/-- `Prefix::is_verbatim` of the prefix, if there is one. -/
def Parsed.isVerbatim (parsed : Parsed) : Bool := parsed.kind.any PrefixKind.isVerbatim

/-- What separates in the path. -/
def Parsed.separates (parsed : Parsed) : Char → Bool :=
  if parsed.isVerbatim then isBackslash else isSeparator

/-- A separator follows the prefix. -/
def Parsed.hasPhysicalRoot (parsed : Parsed) : Bool := parsed.rest.head?.any isSeparator

/-- `Prefix::has_implicit_root`. -/
def Parsed.hasImplicitRoot (parsed : Parsed) : Bool := parsed.kind.any (· != .disk)

/-- `Path::has_root`. -/
def hasRoot (path : List Char) : Bool :=
  (parsePrefix path).hasPhysicalRoot || (parsePrefix path).hasImplicitRoot

/-- `Path::is_absolute`. -/
def isAbsolute (path : List Char) : Bool := hasRoot path && (parsePrefix path).kind.isSome

/-- The component that a piece between separators is. -/
def pieceComponent (verbatim : Bool) (piece : List Char) : Option PathComponent :=
  if piece = [] then none
  else if piece = ['.'] then if verbatim then some .curDir else none
  else if piece = ['.', '.'] then some .parentDir
  else some (.normal piece)

/-- The components of what separators cut. -/
def bodyComponents (parsed : Parsed) (body : List Char) : List PathComponent :=
  (body.splitOnP parsed.separates).filterMap (pieceComponent parsed.isVerbatim)

/-- A leading `.` counts where there is neither a prefix nor a root. -/
def leadingDot : List Char → List PathComponent × List Char
  | ['.'] => ([.curDir], [])
  | '.' :: c :: rest =>
      if isSeparator c then ([.curDir], c :: rest) else ([], '.' :: c :: rest)
  | rest => ([], rest)

/-- The component after the prefix, if it is no name, and the body. -/
def Parsed.startAndBody (parsed : Parsed) : List PathComponent × List Char :=
  if parsed.hasPhysicalRoot then ([.rootDir], parsed.rest.tail)
  else if parsed.kind.isSome then
    (if parsed.hasImplicitRoot && !parsed.isVerbatim then [.rootDir] else [], parsed.rest)
  else leadingDot parsed.rest

/-- The component that a prefix is. -/
def Parsed.prefixComponents (parsed : Parsed) : List PathComponent :=
  (parsed.kind.map (PathComponent.prefixed · parsed.prefixText)).toList

def Parsed.components (parsed : Parsed) : List PathComponent :=
  parsed.prefixComponents ++ parsed.startAndBody.1 ++ bodyComponents parsed parsed.startAndBody.2

/-- `Path::components`. -/
def components (path : List Char) : List PathComponent := (parsePrefix path).components

/-! ## Joining -/

/-- `Component::as_os_str`. -/
def PathComponent.text : PathComponent → List Char
  | .prefixed _ text => text
  | .rootDir => ['\\']
  | .curDir => ['.']
  | .parentDir => ['.', '.']
  | .normal name => name

/-- What the components of a verbatim path are when another component follows.
Source: `std`, `PathBuf::push` -/
def pushComponent (components : List PathComponent) : PathComponent → List PathComponent
  | .rootDir => components.take 1 ++ [.rootDir]
  | .curDir => components
  | .parentDir =>
      match components.getLast? with
      | some (.normal _) => components.dropLast
      | _ => components
  | component => components ++ [component]

/-- A separator is needed after the component. -/
def PathComponent.needsSeparator : PathComponent → Bool
  | .rootDir => false
  | .prefixed kind text => kind != .disk && text != []
  | _ => true

/-- The text of components. -/
def render (needsSeparator : Bool) : List PathComponent → List Char
  | [] => []
  | component :: rest =>
      (if needsSeparator && component != .rootDir then ['\\'] else []) ++ component.text ++
        render component.needsSeparator rest

/-- A separator is needed between the path and what is pushed: the path does not end in one, and is
not a drive alone. -/
def needsSeparator (path : List Char) : Bool :=
  path.getLast?.any (fun c => !isSeparator c) &&
    !((parsePrefix path).kind = some .disk && (parsePrefix path).rest = [])

/-- `Path::join`. -/
def join (base path : List Char) : List Char :=
  if isAbsolute path || (parsePrefix path).kind.isSome then path
  else if (parsePrefix base).isVerbatim && path != [] then
    render false ((components path).foldl pushComponent (components base))
  else if hasRoot path then (parsePrefix base).prefixText ++ path
  else if needsSeparator base then base ++ '\\' :: path
  else base ++ path

/-! ## Cutting at separators -/

section cutting

variable {separates : Char → Bool} {chars more : List Char} {c : Char}

/-- What follows after a separator does not change what stands before it. -/
theorem nextComponent_append (h : more.head?.all separates = true) :
    nextComponent separates (chars ++ more) =
      ((nextComponent separates chars).1, (nextComponent separates chars).2 ++ more) := by
  induction chars with
  | nil =>
      cases more with
      | nil => rfl
      | cons c rest =>
          have hc : separates c = true := h
          simp [nextComponent, hc]
  | cons c rest ih =>
      cases hc : separates c with
      | true => simp [nextComponent, hc]
      | false => simpa [nextComponent, hc] using ih

theorem append_nextComponent :
    (nextComponent separates chars).1 ++ (nextComponent separates chars).2 = chars :=
  List.takeWhile_append_dropWhile

theorem head?_nextComponent : (nextComponent separates chars).2.head?.all separates = true := by
  induction chars with
  | nil => rfl
  | cons c rest ih =>
      cases hc : separates c with
      | true => simp [nextComponent, hc]
      | false => simpa [nextComponent, hc] using ih

theorem notSeparates_nextComponent (h : c ∈ (nextComponent separates chars).1) :
    separates c = false := by
  simpa using List.all_eq_true.mp List.all_takeWhile c h

/-- Where nothing separates, all is one component. -/
theorem nextComponent_eq (h : ∀ c ∈ chars, separates c = false) :
    nextComponent separates chars = (chars, []) := by
  induction chars with
  | nil => rfl
  | cons c rest ih =>
      obtain ⟨hc, hrest⟩ := List.forall_mem_cons.mp h
      simpa [nextComponent, hc] using ih hrest

/-- The pieces between the separators have none. -/
theorem notSeparates_of_mem_splitOnP {piece : List Char} (h : piece ∈ chars.splitOnP separates) :
    ∀ c ∈ piece, separates c = false := by
  induction chars generalizing piece with
  | nil =>
      rw [List.splitOnP_nil, List.mem_singleton] at h
      simp [h]
  | cons first rest ih =>
      rw [List.splitOnP_cons_eq_if_modifyHead] at h
      split_ifs at h with hfirst
      · obtain rfl | h := List.mem_cons.mp h
        · simp
        · exact ih h
      · cases hsplit : rest.splitOnP separates with
        | nil => exact absurd hsplit (List.splitOnP_ne_nil _ _)
        | cons head others =>
            rw [hsplit, List.modifyHead_cons] at h
            rw [hsplit] at ih
            obtain rfl | h := List.mem_cons.mp h
            · exact List.forall_mem_cons.mpr ⟨Bool.eq_false_iff.mpr hfirst, ih List.mem_cons_self⟩
            · exact ih (List.mem_cons_of_mem _ h)

end cutting

/-! ## Prefixes that last -/

section lasting

variable {path more start rest text server share : List Char} {a b c d : Char}

theorem isSeparator_of_isBackslash (h : isBackslash c = true) : isSeparator c = true := by
  simp_all [isBackslash, isSeparator]

theorem all_isSeparator (h : more.head?.all isBackslash = true) :
    more.head?.all isSeparator = true := by
  cases more with
  | nil => rfl
  | cons c rest => exact isSeparator_of_isBackslash h

/-- A parse goes on after what was parsed. -/
def Parsed.append (parsed : Parsed) (more : List Char) : Parsed :=
  { parsed with rest := parsed.rest ++ more }

/-- Once a separator ends the server, what follows after a separator is the rest. -/
theorem parseServer_append (h : more.head?.all isSeparator = true)
    (hserver : ∃ c ∈ rest, isSeparator c = true) :
    parseServer start (rest ++ more) = (parseServer start rest).append more := by
  have hleft : (nextComponent isSeparator rest).2 ≠ [] := by
    intro hnil
    obtain ⟨c, hc, hsep⟩ := hserver
    have hall := @append_nextComponent isSeparator rest
    rw [hnil, List.append_nil] at hall
    rw [← hall] at hc
    rw [notSeparates_nextComponent hc] at hsep
    cases hsep
  obtain ⟨c, tail, htail⟩ := List.exists_cons_of_ne_nil hleft
  unfold parseServer
  rw [nextComponent_append h]
  dsimp only
  rw [htail, List.cons_append]
  dsimp only
  rw [nextComponent_append h]
  dsimp only
  split_ifs
  · simp [Parsed.append]
  · rfl

theorem isVerbatim_parseVerbatim : (parseVerbatim start rest).isVerbatim = true := by
  have hname : (parseVerbatimName start rest).isVerbatim = true := by
    unfold parseVerbatimName
    dsimp only
    split
    · split_ifs
      · rfl
      · rfl
    · rfl
  have hserver {start rest : List Char} : (parseVerbatimUnc start rest).isVerbatim = true := by
    unfold parseVerbatimUnc
    dsimp only
    split
    · rfl
    · split_ifs
      · rfl
      · rfl
  unfold parseVerbatim
  split
  · split_ifs
    · exact hserver
    · exact hname
  · exact hname

/-- After two separators and two more characters it is decided what the prefix is, but for the names in
it. -/
theorem parseDouble_append (h : more.head?.all isSeparator = true)
    (hplain : (parseDouble a b (c :: d :: rest)).isVerbatim = false)
    (hserver : ∃ e ∈ c :: d :: rest, isSeparator e = true) :
    parseDouble a b (c :: d :: (rest ++ more)) =
      (parseDouble a b (c :: d :: rest)).append more := by
  have hunc : parseServer [a, b] (c :: d :: (rest ++ more)) =
      (parseServer [a, b] (c :: d :: rest)).append more := parseServer_append h hserver
  by_cases hquestion : c = '?'
  · subst hquestion
    simp only [parseDouble] at hplain ⊢
    split_ifs at hplain ⊢
    · rw [isVerbatim_parseVerbatim] at hplain
      cases hplain
    · exact hunc
  · by_cases hdot : c = '.'
    · subst hdot
      simp only [parseDouble]
      split_ifs
      · rw [nextComponent_append h]
        rfl
      · exact hunc
    · have hother (tail : List Char) : parseDouble a b (c :: d :: tail) =
          parseServer [a, b] (c :: d :: tail) := by
        unfold parseDouble
        split
        · next heq => exact absurd (List.cons.inj heq).1 hquestion
        · next heq => exact absurd (List.cons.inj heq).1 hdot
        · rfl
      rw [hother, hother]
      exact hunc

/-- What follows after a separator is the rest, when the path is long enough, has a name after its
server, and is not verbatim. -/
theorem parsePrefix_append (h : more.head?.all isSeparator = true) (hlong : 4 ≤ path.length)
    (hplain : (parsePrefix path).isVerbatim = false)
    (hserver : ∃ c ∈ path.drop 2, isSeparator c = true) :
    parsePrefix (path ++ more) = (parsePrefix path).append more := by
  obtain ⟨a, b, c, d, rest, rfl⟩ : ∃ a b c d rest, path = a :: b :: c :: d :: rest := by
    rcases path with _ | ⟨a, _ | ⟨b, _ | ⟨c, _ | ⟨d, rest⟩⟩⟩⟩
    all_goals simp_all
  simp only [parsePrefix, List.cons_append] at hplain ⊢
  split_ifs at hplain ⊢
  · exact parseDouble_append h hplain hserver
  · rfl
  · rfl

theorem parseServer_of_none (h : (parseServer start rest).kind = none) :
    parseServer start rest = ⟨none, [], start ++ rest⟩ := by
  cases hafter : (nextComponent isSeparator rest).2 with
  | nil => simp only [parseServer, hafter]
  | cons c tail =>
      simp only [parseServer, hafter] at h ⊢
      split_ifs at h ⊢
      rfl

/-- Without a prefix, nothing is cut off. -/
theorem parsePrefix_of_none (h : (parsePrefix path).kind = none) :
    parsePrefix path = ⟨none, [], path⟩ := by
  have hsome {start rest : List Char} : (parseVerbatim start rest).kind ≠ none := by
    intro hnone
    have hverbatim : (parseVerbatim start rest).isVerbatim = true := isVerbatim_parseVerbatim
    rw [Parsed.isVerbatim, hnone] at hverbatim
    cases hverbatim
  have hdouble {a b : Char} {rest : List Char} (h : (parseDouble a b rest).kind = none) :
      parseDouble a b rest = ⟨none, [], a :: b :: rest⟩ := by
    unfold parseDouble at h ⊢
    split at h
    · split_ifs at h ⊢
      · exact absurd h hsome
      · exact parseServer_of_none h
    · split_ifs at h ⊢
      exact parseServer_of_none h
    · exact parseServer_of_none h
  unfold parsePrefix at h ⊢
  split at h
  · split_ifs at h ⊢
    · exact hdouble h
    · rfl
  · rfl

/-! ### Verbatim prefixes -/

/-- The prefix stays the prefix, whatever follows after a backslash. -/
def Lasting (kind : PrefixKind) (text : List Char) : Prop :=
  ∀ more : List Char, more.head?.all isBackslash = true →
    parsePrefix (text ++ more) = ⟨some kind, text, more⟩

/-- How a verbatim path begins. -/
def verbatimStart : List Char := ['\\', '\\', '?', '\\']

theorem parsePrefix_verbatimStart (rest : List Char) :
    parsePrefix (verbatimStart ++ rest) = parseVerbatim verbatimStart rest := rfl

/-- Only what begins with the three backslashes is verbatim. -/
theorem verbatimStart_of_isVerbatim (h : (parsePrefix path).isVerbatim = true) :
    ∃ rest, path = verbatimStart ++ rest := by
  have hserver {start rest : List Char} : (parseServer start rest).isVerbatim = false := by
    unfold parseServer
    dsimp only
    split
    · rfl
    · split_ifs
      · rfl
      · rfl
  unfold parsePrefix at h
  split at h
  · split_ifs at h
    · unfold parseDouble at h
      split at h
      · split_ifs at h with hslashes
        · simp only [isBackslash, Bool.and_eq_true, beq_iff_eq] at hslashes
          obtain ⟨⟨rfl, rfl⟩, rfl⟩ := hslashes
          exact ⟨_, rfl⟩
        · rw [hserver] at h
          cases h
      · split_ifs at h
        · cases h
        · rw [hserver] at h
          cases h
      · rw [hserver] at h
        cases h
    · cases h
    · cases h
  · cases h

/-- A server and a share make a prefix that lasts. -/
theorem lasting_share (hc : isSeparator c = true) (hserver : ∀ e ∈ server, isBackslash e = false)
    (hshare : ∀ e ∈ share, isBackslash e = false) (hne : share ≠ []) :
    Lasting .verbatimUnc (verbatimStart ++ ['U', 'N', 'C', c] ++ server ++ '\\' :: share) := by
  intro more hmore
  have hafter : nextComponent isBackslash (server ++ '\\' :: (share ++ more)) =
      (server, '\\' :: (share ++ more)) := by
    rw [nextComponent_append rfl, nextComponent_eq hserver, List.nil_append]
  have hleft : nextComponent isBackslash (share ++ more) = (share, more) := by
    rw [nextComponent_append hmore, nextComponent_eq hshare, List.nil_append]
  have hunc : parseVerbatimUnc (verbatimStart ++ ['U', 'N', 'C', c])
      (server ++ '\\' :: (share ++ more)) =
        ⟨some .verbatimUnc, verbatimStart ++ ['U', 'N', 'C', c] ++ server ++ '\\' :: share, more⟩ := by
    simp only [parseVerbatimUnc, hafter, hleft, if_neg hne]
  have hpath : verbatimStart ++ ['U', 'N', 'C', c] ++ server ++ '\\' :: share ++ more =
      verbatimStart ++ ('U' :: 'N' :: 'C' :: c :: (server ++ '\\' :: (share ++ more))) := by
    simp
  rw [hpath, parsePrefix_verbatimStart, ← hunc]
  exact if_pos hc

/-- A name after the start of a verbatim path, other than a drive and `UNC`, makes a prefix that
lasts. -/
theorem lasting_name {name : List Char} (hname : ∀ e ∈ name, isBackslash e = false)
    (hunc : ∀ c left, name = 'U' :: 'N' :: 'C' :: c :: left → isSeparator c = false)
    (hbare : name ≠ ['U', 'N', 'C'])
    (hdrive : ∀ letter left, name = letter :: ':' :: left →
      (letter.isAlpha && left.head?.all isSeparator) = false) :
    Lasting .verbatim (verbatimStart ++ name) := by
  intro more hmore
  have hnext : nextComponent isBackslash (name ++ more) = (name, more) := by
    rw [nextComponent_append hmore, nextComponent_eq hname, List.nil_append]
  have hslash : more = [] ∨ ∃ left, more = '\\' :: left := by
    cases more with
    | nil => exact .inl rfl
    | cons c left =>
        obtain rfl : c = '\\' := by simpa [isBackslash] using hmore
        exact .inr ⟨left, rfl⟩
  have hunnamed : parseVerbatim verbatimStart (name ++ more) =
      parseVerbatimName verbatimStart (name ++ more) := by
    unfold parseVerbatim
    split
    · next c left heq =>
        refine if_neg ?_
        rw [Bool.not_eq_true]
        rcases name with _ | ⟨u, _ | ⟨n, _ | ⟨k, _ | ⟨d, tail⟩⟩⟩⟩
        · obtain rfl | ⟨_, rfl⟩ := hslash <;> simp at heq
        · obtain rfl | ⟨_, rfl⟩ := hslash <;> simp at heq
        · obtain rfl | ⟨_, rfl⟩ := hslash <;> simp at heq
        · obtain ⟨rfl, rfl, rfl, -⟩ : u = 'U' ∧ n = 'N' ∧ k = 'C' ∧ more = c :: left := by
            simpa using heq
          exact absurd rfl hbare
        · obtain ⟨rfl, rfl, rfl, rfl, -⟩ :
              u = 'U' ∧ n = 'N' ∧ k = 'C' ∧ d = c ∧ tail ++ more = left := by
            simpa using heq
          exact hunc _ _ rfl
    · rfl
  rw [List.append_assoc, parsePrefix_verbatimStart, hunnamed]
  unfold parseVerbatimName
  rw [hnext]
  dsimp only
  split
  · next letter left heq =>
      refine if_neg ?_
      rw [Bool.not_eq_true]
      rcases name with _ | ⟨first, _ | ⟨second, tail⟩⟩
      · obtain rfl | ⟨_, rfl⟩ := hslash
        · simp at heq
        · obtain ⟨rfl, -⟩ : '\\' = letter ∧ _ := by simpa using heq
          rfl
      · obtain rfl | ⟨_, rfl⟩ := hslash <;> simp at heq
      · obtain ⟨rfl, rfl, rfl⟩ : first = letter ∧ second = ':' ∧ tail ++ more = left := by
          simpa using heq
        have hletter := hdrive _ _ rfl
        cases tail with
        | nil =>
            rw [List.head?_nil, Option.all_none, Bool.and_true] at hletter
            rw [hletter, Bool.false_and]
        | cons third rest => exact hletter
  · rfl

/-- What the prefix of a verbatim path is: it lasts, or lacks a share, or is `UNC` alone. -/
theorem verbatim_cases (h : (parsePrefix path).isVerbatim = true) :
    (∃ kind, (parsePrefix path).kind = some kind ∧ kind.isVerbatim = true ∧
        Lasting kind (parsePrefix path).prefixText) ∨
      (∃ c server, (parsePrefix path).kind = some .verbatimUnc ∧ isSeparator c = true ∧
        (∀ e ∈ server, isBackslash e = false) ∧
        (parsePrefix path).prefixText = verbatimStart ++ ['U', 'N', 'C', c] ++ server) ∨
      path = verbatimStart ++ ['U', 'N', 'C'] := by
  obtain ⟨rest, rfl⟩ := verbatimStart_of_isVerbatim h
  rw [parsePrefix_verbatimStart]
  by_cases hunc : ∃ c left, rest = 'U' :: 'N' :: 'C' :: c :: left ∧ isSeparator c = true
  · obtain ⟨c, left, rfl, hc⟩ := hunc
    have heq : parseVerbatim verbatimStart ('U' :: 'N' :: 'C' :: c :: left) =
        parseVerbatimUnc (verbatimStart ++ ['U', 'N', 'C', c]) left := if_pos hc
    have hserver : ∀ e ∈ (nextComponent isBackslash left).1, isBackslash e = false :=
      fun e he => notSeparates_nextComponent he
    rw [heq]
    cases hafter : (nextComponent isBackslash left).2 with
    | nil =>
        refine .inr (.inl ⟨c, _, ?_, hc, hserver, ?_⟩)
        · simp only [parseVerbatimUnc, hafter]
        · simp only [parseVerbatimUnc, hafter]
    | cons d tail =>
        have hd : isBackslash d = true := by
          have hhead := @head?_nextComponent isBackslash left
          rw [hafter] at hhead
          exact hhead
        obtain rfl : d = '\\' := by simpa [isBackslash] using hd
        by_cases hshare : (nextComponent isBackslash tail).1 = []
        · refine .inr (.inl ⟨c, _, ?_, hc, hserver, ?_⟩)
          · simp only [parseVerbatimUnc, hafter, if_pos hshare]
          · simp only [parseVerbatimUnc, hafter, if_pos hshare]
        · refine .inl ⟨.verbatimUnc, ?_, rfl, ?_⟩
          · simp only [parseVerbatimUnc, hafter, if_neg hshare]
          · simp only [parseVerbatimUnc, hafter, if_neg hshare]
            exact lasting_share hc hserver (fun e he => notSeparates_nextComponent he) hshare
  · have heq : parseVerbatim verbatimStart rest = parseVerbatimName verbatimStart rest := by
      unfold parseVerbatim
      split
      · next c left =>
          exact if_neg fun hc => hunc ⟨c, left, rfl, hc⟩
      · rfl
    rw [heq]
    by_cases hdrive : ∃ letter left, rest = letter :: ':' :: left ∧
        (letter.isAlpha && left.head?.all isSeparator) = true
    · obtain ⟨letter, left, rfl, hletter⟩ := hdrive
      have hdisk : parseVerbatimName verbatimStart (letter :: ':' :: left) =
          ⟨some .verbatimDisk, verbatimStart ++ [letter, ':'], left⟩ := if_pos hletter
      rw [hdisk]
      refine .inl ⟨.verbatimDisk, rfl, rfl, fun more hmore => ?_⟩
      have halpha : letter.isAlpha = true := (Bool.and_eq_true_iff.mp hletter).1
      have hmatch : (letter.isAlpha && more.head?.all isSeparator) = true := by
        rw [halpha, all_isSeparator hmore, Bool.and_self]
      show parseVerbatim verbatimStart (letter :: ':' :: more) = _
      unfold parseVerbatim
      split
      · next heq => simp at heq
      · exact if_pos hmatch
    · have hnamed : parseVerbatimName verbatimStart rest =
          ⟨some .verbatim, verbatimStart ++ (nextComponent isBackslash rest).1,
            (nextComponent isBackslash rest).2⟩ := by
        unfold parseVerbatimName
        dsimp only
        split
        · next letter left => exact if_neg fun hletter => hdrive ⟨letter, left, rfl, hletter⟩
        · rfl
      rw [hnamed]
      have hwhole := @append_nextComponent isBackslash rest
      have hhead := @head?_nextComponent isBackslash rest
      set name := (nextComponent isBackslash rest).1 with hname
      set after := (nextComponent isBackslash rest).2
      by_cases hbare : name = ['U', 'N', 'C']
      · cases hafter : after with
        | nil =>
            rw [hafter, List.append_nil] at hwhole
            exact .inr (.inr (by rw [← hwhole, hbare]))
        | cons c left =>
            rw [hafter] at hwhole hhead
            refine absurd ⟨c, left, ?_, isSeparator_of_isBackslash hhead⟩ hunc
            rw [← hwhole, hbare]
            rfl
      · refine .inl ⟨.verbatim, rfl, rfl, lasting_name (fun e he => notSeparates_nextComponent he)
          (fun c left heq => ?_) hbare fun letter left heq => ?_⟩
        · by_contra hc
          refine hunc ⟨c, left ++ after, ?_, by simpa using hc⟩
          rw [← hwhole, heq]
          rfl
        · by_contra hletter
          rw [Bool.not_eq_false, Bool.and_eq_true] at hletter
          refine hdrive ⟨letter, left ++ after, ?_, ?_⟩
          · rw [← hwhole, heq]
            rfl
          · rw [hletter.1, Bool.true_and]
            cases left with
            | nil => exact all_isSeparator hhead
            | cons c tail => exact hletter.2

/-- A verbatim prefix is followed by a separator or by nothing. -/
theorem head?_rest_of_isVerbatim (h : (parsePrefix path).isVerbatim = true) :
    (parsePrefix path).rest.head?.all isSeparator = true := by
  obtain ⟨rest, rfl⟩ := verbatimStart_of_isVerbatim h
  rw [parsePrefix_verbatimStart]
  have hname : (parseVerbatimName verbatimStart rest).rest.head?.all isSeparator = true := by
    unfold parseVerbatimName
    dsimp only
    split
    · split_ifs with hletter
      · exact (Bool.and_eq_true_iff.mp hletter).2
      · exact all_isSeparator head?_nextComponent
    · exact all_isSeparator head?_nextComponent
  have hserver {start left : List Char} :
      (parseVerbatimUnc start left).rest.head?.all isSeparator = true := by
    have hhead := @head?_nextComponent isBackslash left
    unfold parseVerbatimUnc
    dsimp only
    cases hafter : (nextComponent isBackslash left).2 with
    | nil => rfl
    | cons c tail =>
        rw [hafter] at hhead
        dsimp only
        split_ifs
        · exact isSeparator_of_isBackslash hhead
        · exact all_isSeparator head?_nextComponent
  unfold parseVerbatim
  split
  · split_ifs
    · exact hserver
    · exact hname
  · exact hname

end lasting

end OpenGuard.Lib.WindowsPath
