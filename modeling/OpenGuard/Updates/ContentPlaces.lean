import OpenGuard.Lib.WindowsJoin
import OpenGuard.Updates.VersionNames

/-!
# The places of content

The path of a content file comes from the manifest, and is joined to the staging directory of an
installation.

* `all_names_iff`: the components that `content_path` looks at are those of a Windows path.
* `StaysInside`: a path that leads from any staging directory to a place beneath it.
* `content_never_escapes`: **an accepted path stays inside**, and whether it is accepted does not depend
  on which separators are slashes.
-/

namespace OpenGuard.Updates

open OpenGuard.Lib

/-! ## The components of a Windows path -/

section components

variable {path : String} {chars part : List Char}

theorem splitOnP_congr {p q : Char → Bool} (h : ∀ c ∈ chars, p c = q c) :
    chars.splitOnP p = chars.splitOnP q := by
  induction chars with
  | nil => rfl
  | cons c rest ih =>
      obtain ⟨hc, hrest⟩ := List.forall_mem_cons.mp h
      rw [List.splitOnP_cons_eq_if_modifyHead, List.splitOnP_cons_eq_if_modifyHead, hc, ih hrest]

/-- Without backslashes, only slashes separate. -/
theorem isSeparator_eq (h : '\\' ∉ chars) : ∀ c ∈ chars, isSeparator c = (c == '/') := by
  intro c hc
  have hne : c ≠ '\\' := fun heq => h (heq ▸ hc)
  simp [isSeparator, hne]

/-- A piece is a name in the one sense exactly when it is in the other. -/
theorem pieceComponent_eq (part : List Char) :
    WindowsPath.pieceComponent false part =
      if part ≠ [] && part ≠ ['.'] then
        some (if part = ['.', '.'] then .parentDir else .normal part)
      else none := by
  unfold WindowsPath.pieceComponent
  by_cases hempty : part = []
  · simp [hempty]
  · by_cases hdot : part = ['.']
    · simp [hdot]
    · simp only [hempty, hdot, if_false]
      split_ifs <;> simp_all

/-- The pieces of a path without backslashes, in both senses. -/
theorem filterMap_pieceComponent (h : '\\' ∉ chars) :
    (chars.splitOnP isSeparator).filterMap (WindowsPath.pieceComponent false) =
      (pathParts chars).map fun part =>
        if part = ['.', '.'] then .parentDir else .normal part := by
  rw [splitOnP_congr (isSeparator_eq h), pathParts]
  induction chars.splitOnP (· == '/') with
  | nil => rfl
  | cons part rest ih =>
      rw [List.filterMap_cons, pieceComponent_eq, List.filter_cons]
      split_ifs with hsays
      · rw [List.map_cons, ih, if_pos ‹_›]
      · rw [List.map_cons, ih, if_neg ‹_›]
      · exact ih

/-- A path of names does not start with a drive, a root or a dot. -/
theorem start_of_names (h : (components path).all (·.name?.isSome) = true) :
    components path = (pathParts path.toList).map partComponent ∧
      (∀ letter rest, path.toList = letter :: ':' :: rest → letter.isAlpha = false) ∧
      (∀ rest, path.toList ≠ '/' :: rest) ∧ path.toList ≠ ['.'] ∧
      ∀ rest, path.toList ≠ '.' :: '/' :: rest := by
  have hname : ∀ component ∈ components path, component.name?.isSome = true :=
    List.all_eq_true.mp h
  have hletter : ∀ letter rest, path.toList = letter :: ':' :: rest → letter.isAlpha = false := by
    intro letter rest heq
    by_contra halpha
    rw [Bool.not_eq_false] at halpha
    have hsplit : splitDrive path.toList = ([.drive letter], rest) := by
      rw [heq]
      exact if_pos halpha
    cases hname (.drive letter) (by simp [components, hsplit])
  have hdrive : splitDrive path.toList = ([], path.toList) := by
    unfold splitDrive
    split
    · next letter rest heq => rw [if_neg (by simp [hletter letter rest heq]), heq]
    · rfl
  have hcomponents : components path =
      startComponent path.toList ++ (pathParts path.toList).map partComponent := by
    rw [components, hdrive]
    rfl
  rw [hcomponents] at hname
  have hroot : ∀ rest, path.toList ≠ '/' :: rest := by
    intro rest heq
    cases hname .rootDir (by simp [startComponent, heq])
  have hdot : path.toList ≠ ['.'] := by
    intro heq
    cases hname .curDir (by simp [startComponent, heq])
  have hdots : ∀ rest, path.toList ≠ '.' :: '/' :: rest := by
    intro rest heq
    cases hname .curDir (by simp [startComponent, heq])
  have hstart : startComponent path.toList = [] := by
    unfold startComponent
    split
    · next rest heq => exact absurd heq (hroot rest)
    · next heq => exact absurd heq hdot
    · next rest heq => exact absurd heq (hdots rest)
    · rfl
  exact ⟨by rw [hcomponents, hstart, List.nil_append], hletter, hroot, hdot, hdots⟩

/-- Such a path starts with its body in the Windows syntax too. -/
theorem parsePrefix_of_start (hslash : '\\' ∉ chars)
    (hletter : ∀ letter rest, chars = letter :: ':' :: rest → letter.isAlpha = false)
    (hroot : ∀ rest, chars ≠ '/' :: rest) (hdot : chars ≠ ['.'])
    (hdots : ∀ rest, chars ≠ '.' :: '/' :: rest) :
    WindowsPath.components chars =
      (chars.splitOnP isSeparator).filterMap (WindowsPath.pieceComponent false) := by
  have hhead : chars.head?.any isSeparator = false := by
    cases chars with
    | nil => rfl
    | cons c rest =>
        have hc := isSeparator_eq hslash c List.mem_cons_self
        rw [List.head?_cons, Option.any_some, hc, beq_eq_false_iff_ne]
        rintro rfl
        exact hroot rest rfl
  have hparse : WindowsPath.parsePrefix chars = ⟨none, [], chars⟩ := by
    unfold WindowsPath.parsePrefix
    split
    · next a b rest =>
        have ha : isSeparator a = false := hhead
        rw [ha, Bool.false_and, if_neg Bool.false_ne_true]
        refine if_neg fun hdrive => ?_
        rw [Bool.and_eq_true, beq_iff_eq] at hdrive
        obtain ⟨halpha, rfl⟩ := hdrive
        rw [hletter a rest rfl] at halpha
        cases halpha
    · rfl
  have hleading : WindowsPath.leadingDot chars = ([], chars) := by
    unfold WindowsPath.leadingDot
    split
    · exact absurd rfl hdot
    · next c rest =>
        have hc := isSeparator_eq hslash c (by simp)
        refine if_neg fun hsep => ?_
        rw [hc, beq_iff_eq] at hsep
        exact hdots rest (by rw [hsep])
    · rfl
  have hstart : WindowsPath.Parsed.startAndBody ⟨none, [], chars⟩ = ([], chars) :=
    (if_neg (by simpa [WindowsPath.Parsed.hasPhysicalRoot] using hhead)).trans hleading
  rw [WindowsPath.components, hparse, WindowsPath.Parsed.components, hstart]
  rfl

/-- **The names are the components of a Windows path.** -/
theorem components_of_names (hslash : '\\' ∉ path.toList)
    (h : (components path).all (·.name?.isSome) = true) :
    WindowsPath.components path.toList =
      ((pathNames path).map String.toList).map .normal := by
  obtain ⟨hcomponents, hletter, hroot, hdot, hdots⟩ := start_of_names h
  rw [parsePrefix_of_start hslash hletter hroot hdot hdots, filterMap_pieceComponent hslash,
    pathNames]
  rw [hcomponents] at h ⊢
  generalize pathParts path.toList = parts at h
  induction parts with
  | nil => rfl
  | cons part rest ih =>
      rw [List.map_cons, List.all_cons, Bool.and_eq_true] at h
      have hpart : part ≠ ['.', '.'] := by
        rintro rfl
        cases h.1
      rw [List.map_cons, List.map_cons, ih h.2, if_neg hpart]
      have hname : partComponent part = .normal (String.ofList part) := if_neg hpart
      have hkeep : (Component.normal (String.ofList part)).name? = some (String.ofList part) := rfl
      rw [hname, List.filterMap_cons_some hkeep, List.map_cons, List.map_cons,
        String.toList_ofList]

/-- A path of names, in the Windows syntax, has no drive, root or dot at its start. -/
theorem start_of_components {names : List (List Char)}
    (h : WindowsPath.components chars = names.map .normal) :
    (∀ letter rest, chars = letter :: ':' :: rest → letter.isAlpha = false) ∧
      (∀ rest, chars ≠ '/' :: rest) ∧ chars ≠ ['.'] ∧ ∀ rest, chars ≠ '.' :: '/' :: rest := by
  obtain ⟨hparse, hhead, -⟩ := WindowsPath.parsePrefix_of_names h
  have hcur {rest : List WindowsPath.PathComponent} :
      WindowsPath.components chars ≠ .curDir :: rest := by
    rw [h]
    intro heq
    cases names with
    | nil => cases heq
    | cons name others => cases (List.cons.inj heq).1
  refine ⟨?_, ?_, ?_, ?_⟩
  · rintro letter rest rfl
    have hletter : isSeparator letter = false := hhead
    by_contra halpha
    rw [Bool.not_eq_false] at halpha
    rw [WindowsPath.parsePrefix, hletter, Bool.false_and, if_neg Bool.false_ne_true,
      if_pos (by rw [halpha]; rfl)] at hparse
    cases hparse
  · rintro rest rfl
    cases hhead
  · rintro rfl
    exact hcur rfl
  · rintro rest rfl
    exact hcur rfl

/-- **The check of `content_path` is that of a Windows path.** -/
theorem all_names_iff (hslash : '\\' ∉ path.toList) :
    (!isAbsolutePath path && (components path).all (·.name?.isSome)) = true ↔
      ∃ names : List (List Char), WindowsPath.components path.toList = names.map .normal := by
  rw [Bool.and_eq_true]
  constructor
  · rintro ⟨-, hnames⟩
    exact ⟨_, components_of_names hslash hnames⟩
  · rintro ⟨names, hnames⟩
    obtain ⟨hletter, hroot, hdot, hdots⟩ := start_of_components hnames
    have hbody := parsePrefix_of_start hslash hletter hroot hdot hdots
    have hdrive : splitDrive path.toList = ([], path.toList) := by
      unfold splitDrive
      split
      · next letter rest heq => rw [if_neg (by simp [hletter letter rest heq]), heq]
      · rfl
    have hstart : startComponent path.toList = [] := by
      unfold startComponent
      split
      · next rest heq => exact absurd heq (hroot rest)
      · next heq => exact absurd heq hdot
      · next rest heq => exact absurd heq (hdots rest)
      · rfl
    refine ⟨?_, ?_⟩
    · rw [Bool.not_eq_true', isAbsolutePath]
      split
      · next a b rest heq =>
          have ha : isSeparator a = false := by
            rw [isSeparator_eq hslash a (by rw [heq]; exact List.mem_cons_self),
              beq_eq_false_iff_ne]
            rintro rfl
            exact hroot _ heq
          rw [ha, Bool.false_and, if_neg Bool.false_ne_true]
          by_contra habsolute
          simp only [Bool.not_eq_false, Bool.and_eq_true, beq_iff_eq] at habsolute
          obtain ⟨⟨halpha, rfl⟩, -⟩ := habsolute
          rw [hletter a rest heq] at halpha
          cases halpha
      · rfl
    · rw [components, hdrive, List.all_eq_true]
      simp only [hstart, List.nil_append, List.mem_map, forall_exists_index, and_imp,
        forall_apply_eq_imp_iff₂]
      intro part hpart
      have hmem : (if part = ['.', '.'] then WindowsPath.PathComponent.parentDir
          else .normal part) ∈ names.map WindowsPath.PathComponent.normal := by
        rw [← hnames, hbody, filterMap_pieceComponent hslash]
        exact List.mem_map_of_mem hpart
      unfold partComponent
      split_ifs at hmem ⊢
      · obtain ⟨_, -, heq⟩ := List.mem_map.mp hmem
        cases heq
      · rfl

end components

/-! ## Staging directories -/

/-- The directory that an installation stages in, below any root.
Source: `updates/lib.rs`, `SecurityContentUpdater::install_with_fetcher` -/
def stagingPath (root : List Char) (version uuid : String) : List Char :=
  WindowsPath.join (WindowsPath.join root "versions".toList) (stagingName version uuid).toList

/-- A path lies strictly beneath a directory. -/
def Beneath (directory path : List WindowsPath.PathComponent) : Prop :=
  directory <+: path ∧ directory ≠ path

/-- A path leads from any staging directory to a place beneath it: it is relative, consists of names,
is that of the reputation feed or of a rule, and below the staging directory of any installation under
any root it leads beneath that directory, and so do those of its parents that the installation makes. -/
structure StaysInside (path : String) : Prop where
  relative : (WindowsPath.parsePrefix path.toList).kind = none ∧
    WindowsPath.hasRoot path.toList = false
  named : ∃ names, names ≠ [] ∧ WindowsPath.components path.toList = names.map .normal
  place : path = "reputation.json" ∨
    ∃ names last extension, WindowsPath.components path.toList =
        .normal "rules".toList :: (names ++ [.normal last]) ∧
      fileExtension (String.ofList last) = some extension ∧ eqIgnoreAsciiCase extension "yar" = true
  beneath : ∀ root version uuid, validateVersion version = .ok () → isSimpleUuid uuid = true →
    let staging := WindowsPath.components (stagingPath root version uuid)
    let target := WindowsPath.components
      (WindowsPath.join (stagingPath root version uuid) path.toList)
    Beneath staging target ∧
      ∀ parent, parent <+: target → parent <+: staging ∨ Beneath staging parent

section places

variable {value other path version uuid : String} {root : List Char} {names : List (List Char)}

theorem notMem_replaceChar : '\\' ∉ (replaceChar value '\\' '/').toList := by
  rw [replaceChar, String.toList_ofList, List.mem_map]
  rintro ⟨c, -, hc⟩
  split_ifs at hc with hslash
  · cases hc
  · exact hslash hc

/-- What `content_path` accepts, in terms of Windows paths. -/
theorem contentPath_ok_iff : contentPath value = .ok path ↔
    path = replaceChar value '\\' '/' ∧
      (∃ names : List (List Char), WindowsPath.components path.toList = names.map .normal) ∧
      (path = "reputation.json" ∨ startsWith path "rules/" ∧
        ((pathNames path).getLast?.bind fileExtension).any (eqIgnoreAsciiCase · "yar")) := by
  simp only [contentPath, bind_eq_ok, ensure_eq_ok, pure_eq_ok,
    all_names_iff (@notMem_replaceChar value)]
  constructor
  · rintro ⟨-, hnames, -, hallowed, rfl⟩
    exact ⟨rfl, hnames, hallowed⟩
  · rintro ⟨rfl, hnames, hallowed⟩
    exact ⟨(), hnames, (), hallowed, rfl⟩

/-- What versions and digits are made of is no separator and no colon. -/
theorem plain_of_all {p : Char → Bool} (hno : p '\\' = false ∧ p '/' = false ∧ p ':' = false)
    {chars : List Char} (hall : chars.all p = true) :
    ∀ c ∈ chars, isSeparator c = false ∧ c ≠ ':' := by
  intro c hc
  have hp := List.all_eq_true.mp hall c hc
  have hne {d : Char} (hd : p d = false) : c ≠ d := by
    rintro rfl
    rw [hd] at hp
    cases hp
  exact ⟨by simp [isSeparator, hne hno.1, hne hno.2.1], hne hno.2.2⟩

theorem isPlain_versions : WindowsPath.IsPlain "versions".toList :=
  ⟨by decide, @plain_of_all isVersionChar (by decide) "versions".toList (by decide)⟩

/-- The name of a staging directory is one name, wherever it stands. -/
theorem isPlain_stagingName (hversion : validateVersion version = .ok ())
    (huuid : isSimpleUuid uuid = true) :
    WindowsPath.IsPlain (stagingName version uuid).toList := by
  obtain ⟨-, -, hchars⟩ := validateVersion_ok_iff.mp hversion
  simp only [isSimpleUuid, Bool.and_eq_true, decide_eq_true_eq] at huuid
  obtain ⟨⟨⟨hlength, hdigits⟩, -⟩, -⟩ := huuid
  have hstart := @plain_of_all isVersionChar (by decide) ".staging-".toList (by decide)
  have hdash := @plain_of_all isVersionChar (by decide) "-".toList (by decide)
  rw [stagingName]
  simp only [String.toList_append]
  refine ⟨?_, ?_⟩
  · rw [List.length_append, hlength]
    omega
  · refine List.forall_mem_append.mpr ⟨List.forall_mem_append.mpr
      ⟨List.forall_mem_append.mpr ⟨hstart, ?_⟩, hdash⟩, ?_⟩
    · exact plain_of_all (by decide) hchars
    · exact plain_of_all (by decide) hdigits

/-- Below a staging directory, a path of names leads beneath it. -/
theorem beneath_stagingPath (hversion : validateVersion version = .ok ())
    (huuid : isSimpleUuid uuid = true) (hpath : WindowsPath.components path.toList =
      names.map .normal) (hne : names ≠ []) :
    Beneath (WindowsPath.components (stagingPath root version uuid))
      (WindowsPath.components (WindowsPath.join (stagingPath root version uuid) path.toList)) := by
  obtain ⟨start, -, heq⟩ := @WindowsPath.components_join path.toList root names "versions".toList _
    isPlain_versions (isPlain_stagingName hversion huuid) hpath hne
  rw [stagingPath, heq]
  refine ⟨List.prefix_append _ _, fun hsame => ?_⟩
  have hnil := List.self_eq_append_right.mp hsame
  exact hne (List.map_eq_nil_iff.mp (List.append_eq_nil_iff.mp hnil).2)

/-- The last name of a path that goes through `rules` has the extension. -/
theorem place_of_rules (hnames : (components path).all (·.name?.isSome) = true)
    (hslash : '\\' ∉ path.toList) (hstart : startsWith path "rules/" = true)
    (hextension : ((pathNames path).getLast?.bind fileExtension).any (eqIgnoreAsciiCase · "yar") =
      true) :
    ∃ names last extension, WindowsPath.components path.toList =
        .normal "rules".toList :: (names ++ [.normal last]) ∧
      fileExtension (String.ofList last) = some extension ∧
        eqIgnoreAsciiCase extension "yar" = true := by
  obtain ⟨rest, hrest⟩ := pathNames_rules hstart
  obtain ⟨extension, hlast, hyar⟩ := (Option.any_eq_true _ _).mp hextension
  obtain ⟨last, hmem, hlast⟩ := Option.bind_eq_some_iff.mp hlast
  obtain ⟨front, hfront⟩ := List.getLast?_eq_some_iff.mp hmem
  have hcomponents := components_of_names hslash hnames
  cases front with
  | nil =>
      -- the directory of the rules has no extension
      rw [hrest, List.nil_append] at hfront
      obtain ⟨rfl, -⟩ := List.cons.inj hfront
      have hnone : fileExtension "rules" = none := by decide
      rw [hnone] at hlast
      cases hlast
  | cons first front =>
      rw [hrest, List.cons_append] at hfront
      obtain ⟨rfl, rfl⟩ := List.cons.inj hfront
      refine ⟨front.map fun name => .normal name.toList, last.toList, extension, ?_, ?_, hyar⟩
      · rw [hcomponents, hrest]
        simp
      · rwa [String.ofList_toList]

/-- Some of the slashes of the one text are backslashes in the other. -/
def SlashesReplaced (value other : String) : Prop :=
  List.Forall₂ (fun c d => d = c ∨ c = '/' ∧ d = '\\') value.toList other.toList

theorem replaceChar_eq (h : SlashesReplaced value other) :
    replaceChar value '\\' '/' = replaceChar other '\\' '/' := by
  unfold SlashesReplaced at h
  unfold replaceChar
  congr 1
  generalize value.toList = chars at h
  generalize other.toList = others at h
  induction h with
  | nil => rfl
  | cons hc _ ih =>
      rw [List.map_cons, List.map_cons, ih]
      obtain rfl | ⟨rfl, rfl⟩ := hc
      · rfl
      · rfl

/-- **Content never escapes**: an accepted path stays inside any staging directory, and paths that
differ only in which of their separators are slashes are accepted alike. -/
theorem content_never_escapes (value : String) :
    (∀ path, contentPath value = .ok path → StaysInside path) ∧
      ∀ other, SlashesReplaced value other →
        ∀ path, contentPath value = .ok path ↔ contentPath other = .ok path := by
  refine ⟨fun path hpath => ?_, fun other hother path => ?_⟩
  · obtain ⟨rfl, ⟨names, hnames⟩, hallowed⟩ := contentPath_ok_iff.mp hpath
    set path := replaceChar value '\\' '/'
    have hslash : '\\' ∉ path.toList := notMem_replaceChar
    obtain ⟨hparse, hroot, -⟩ := WindowsPath.parsePrefix_of_names hnames
    have hall := (Bool.and_eq_true_iff.mp ((all_names_iff hslash).mpr ⟨names, hnames⟩)).2
    have hne : names ≠ [] := by
      rintro rfl
      obtain heq | ⟨hstart, hextension⟩ := hallowed
      · rw [heq] at hnames
        exact absurd hnames (by decide)
      · obtain ⟨_, _, _, heq, -⟩ := place_of_rules hall hslash hstart hextension
        rw [hnames] at heq
        cases heq
    constructor
    · rw [WindowsPath.hasRoot, hparse]
      exact ⟨rfl, by simpa [WindowsPath.Parsed.hasPhysicalRoot, WindowsPath.Parsed.hasImplicitRoot]
        using hroot⟩
    · exact ⟨names, hne, hnames⟩
    · refine hallowed.imp id ?_
      rintro ⟨hstart, hextension⟩
      exact place_of_rules hall hslash hstart hextension
    · intro root version uuid hversion huuid staging target
      have hbeneath : Beneath staging target := beneath_stagingPath hversion huuid hnames hne
      refine ⟨hbeneath, fun parent hparent => ?_⟩
      by_cases hsame : staging = parent
      · exact .inl (hsame ▸ List.prefix_refl _)
      · exact (List.prefix_or_prefix_of_prefix hparent hbeneath.1).imp id fun habove =>
          ⟨habove, hsame⟩
  · rw [contentPath_ok_iff, contentPath_ok_iff, replaceChar_eq hother]

/-- `content_never_escapes` for a rule that is spelled with a backslash and capital letters. -/
theorem content_never_escapes_rule :
    contentPath "rules\\sub/a.YAR" = .ok "rules/sub/a.YAR" ∧ StaysInside "rules/sub/a.YAR" ∧
      SlashesReplaced "rules/sub/a.YAR" "rules\\sub/a.YAR" ∧
      (contentPath "rules/sub/a.YAR" = .ok "rules/sub/a.YAR" ↔
        contentPath "rules\\sub/a.YAR" = .ok "rules/sub/a.YAR") := by
  have hpath : contentPath "rules\\sub/a.YAR" = .ok "rules/sub/a.YAR" := by decide
  have hother : SlashesReplaced "rules/sub/a.YAR" "rules\\sub/a.YAR" := by
    unfold SlashesReplaced
    decide
  exact ⟨hpath, (content_never_escapes _).1 _ hpath, hother,
    (content_never_escapes _).2 _ hother _⟩

end places

end OpenGuard.Updates
