import OpenGuard.Lib.WindowsPath

/-!
# Joining names to a Windows path

A path of names is joined to a directory, whose own path may have any prefix, a verbatim one included.

* `components_join`: below a directory that was itself joined from two names, a path of names leads to
  its names. A directory that is a prefix alone gets its root then.
-/

namespace OpenGuard.Lib.WindowsPath

/-! ## Components of a verbatim path -/

/-- A component that a piece of a verbatim path is. -/
structure IsPiece (component : PathComponent) : Prop where
  piece : pieceComponent true component.text = some component
  plain : ∀ c ∈ component.text, isBackslash c = false

/-- The text of components after separators. -/
def joined (components : List PathComponent) : List Char :=
  components.flatMap fun component => '\\' :: component.text

section verbatim

variable {path base piece text : List Char} {kind : PrefixKind} {component : PathComponent}
  {cs root : List PathComponent} {names : List (List Char)} {verbatim : Bool}

theorem text_of_pieceComponent (h : pieceComponent verbatim piece = some component) :
    component.text = piece := by
  unfold pieceComponent at h
  split_ifs at h with hempty hdot hverbatim hdots
  · obtain rfl := Option.some.inj h
    exact hdot.symm
  · obtain rfl := Option.some.inj h
    exact hdots.symm
  · obtain rfl := Option.some.inj h
    rfl

theorem IsPiece.needsSeparator (h : IsPiece component) :
    component ≠ .rootDir ∧ component.needsSeparator = true := by
  obtain ⟨hpiece, hplain⟩ := h
  cases component with
  | prefixed kind text =>
      unfold pieceComponent at hpiece
      split_ifs at hpiece
      all_goals cases hpiece
  | rootDir => exact absurd (hplain '\\' List.mem_cons_self) (by decide)
  | curDir => exact ⟨nofun, rfl⟩
  | parentDir => exact ⟨nofun, rfl⟩
  | normal name => exact ⟨nofun, rfl⟩

/-- The components of a verbatim body are pieces. -/
theorem isPiece_of_mem_body {parsed : Parsed} {body : List Char} (hverbatim : parsed.isVerbatim = true)
    (h : component ∈ bodyComponents parsed body) : IsPiece component := by
  obtain ⟨piece, hpiece, hcomponent⟩ := List.mem_filterMap.mp h
  have htext := text_of_pieceComponent hcomponent
  have hplain := notSeparates_of_mem_splitOnP hpiece
  rw [Parsed.separates, hverbatim] at hplain
  rw [hverbatim] at hcomponent
  exact ⟨htext ▸ hcomponent, htext ▸ hplain⟩

/-- The components of a verbatim path: its prefix, a root if anything follows, and pieces. -/
theorem components_of_isVerbatim (h : (parsePrefix path).isVerbatim = true) :
    ∃ kind root cs, (parsePrefix path).kind = some kind ∧ kind.isVerbatim = true ∧
      components path = .prefixed kind (parsePrefix path).prefixText :: (root ++ cs) ∧
      (root = [] ∧ cs = [] ∨ root = [.rootDir]) ∧ ∀ component ∈ cs, IsPiece component := by
  have hhead := head?_rest_of_isVerbatim h
  obtain ⟨kind, hkind, hverbatim⟩ : ∃ kind, (parsePrefix path).kind = some kind ∧
      kind.isVerbatim = true := (Option.any_eq_true _ _).mp h
  refine ⟨kind, (parsePrefix path).startAndBody.1,
    bodyComponents (parsePrefix path) (parsePrefix path).startAndBody.2, hkind, hverbatim, ?_, ?_,
    fun component hmem => isPiece_of_mem_body h hmem⟩
  · rw [components, Parsed.components, Parsed.prefixComponents, hkind]
    rfl
  · cases hrest : (parsePrefix path).rest with
    | nil =>
        refine .inl ?_
        simp [Parsed.startAndBody, Parsed.hasPhysicalRoot, hrest, hkind, h, bodyComponents,
          pieceComponent]
    | cons c rest =>
        rw [hrest] at hhead
        have hphysical : (parsePrefix path).hasPhysicalRoot = true := by
          rw [Parsed.hasPhysicalRoot, hrest]
          exact hhead
        exact .inr (by rw [Parsed.startAndBody, if_pos hphysical])

theorem splitOnP_joined (hfirst : IsPiece component) (h : ∀ other ∈ cs, IsPiece other) :
    (component.text ++ joined cs).splitOnP isBackslash = component.text :: cs.map (·.text) := by
  induction cs generalizing component with
  | nil =>
      rw [joined, List.flatMap_nil, List.append_nil]
      exact List.splitOnP_eq_singleton hfirst.plain
  | cons second rest ih =>
      obtain ⟨hsecond, hrest⟩ := List.forall_mem_cons.mp h
      rw [joined, List.flatMap_cons, List.cons_append,
        List.splitOnP_append_cons_of_forall_mem hfirst.plain '\\' rfl]
      exact congrArg _ (ih hsecond hrest)

/-- Below a prefix that lasts, pieces are read back as they are. -/
theorem components_joined (hlasting : Lasting kind text) (hkind : kind.isVerbatim = true)
    (h : ∀ component ∈ cs, IsPiece component) (hne : cs ≠ []) :
    components (text ++ joined cs) = .prefixed kind text :: .rootDir :: cs := by
  obtain ⟨first, rest, rfl⟩ := List.exists_cons_of_ne_nil hne
  obtain ⟨hfirst, hrest⟩ := List.forall_mem_cons.mp h
  have hjoined : joined (first :: rest) = '\\' :: (first.text ++ joined rest) := rfl
  have hparse := hlasting (joined (first :: rest)) rfl
  have hverbatim : (⟨some kind, text, joined (first :: rest)⟩ : Parsed).isVerbatim = true := hkind
  have hall : ((first :: rest).map (·.text)).filterMap (pieceComponent true) = first :: rest := by
    rw [List.filterMap_map]
    refine (List.filterMap_congr fun component hmem => ?_).trans List.filterMap_some
    exact (h component hmem).piece
  have hbody : bodyComponents ⟨some kind, text, joined (first :: rest)⟩
      (first.text ++ joined rest) = first :: rest := by
    rw [bodyComponents, Parsed.separates, hverbatim, if_pos rfl, splitOnP_joined hfirst hrest]
    exact hall
  rw [components, hparse, Parsed.components]
  show [PathComponent.prefixed kind text] ++ [.rootDir] ++ bodyComponents _ (first.text ++ joined rest)
    = _
  rw [hbody]
  rfl

theorem render_pieces (h : ∀ component ∈ cs, IsPiece component) : render true cs = joined cs := by
  induction cs with
  | nil => rfl
  | cons first rest ih =>
      obtain ⟨hfirst, hrest⟩ := List.forall_mem_cons.mp h
      obtain ⟨hroot, hneeds⟩ := hfirst.needsSeparator
      rw [render, hneeds, ih hrest, if_pos (by simpa using hroot)]
      rfl

/-- The text of the components of a verbatim path. -/
theorem render_verbatim (hkind : kind.isVerbatim = true) (htext : text ≠ [])
    (hroot : root = [] ∨ root = [.rootDir]) (h : ∀ component ∈ cs, IsPiece component) (hne : cs ≠ []) :
    render false (.prefixed kind text :: (root ++ cs)) = text ++ joined cs := by
  have hneeds : (PathComponent.prefixed kind text).needsSeparator = true := by
    cases kind <;> simp_all [PathComponent.needsSeparator, PrefixKind.isVerbatim]
  obtain ⟨first, rest, rfl⟩ := List.exists_cons_of_ne_nil hne
  obtain ⟨hfirst, hrest⟩ := List.forall_mem_cons.mp h
  rw [render, hneeds]
  obtain rfl | rfl := hroot
  · rw [List.nil_append, render_pieces h]
    rfl
  · have hbody : render false (first :: rest) = first.text ++ joined rest := by
      rw [render, hfirst.needsSeparator.2, render_pieces hrest]
      rfl
    rw [List.singleton_append, render]
    show text ++ (['\\'] ++ render false (first :: rest)) = _
    rw [hbody]
    rfl

end verbatim

/-! ## Joining names -/

section names

variable {path base text : List Char} {kind : PrefixKind} {cs root : List PathComponent}
  {names : List (List Char)} {n : List Char}

theorem leadingDot_cases (rest : List Char) :
    leadingDot rest = ([], rest) ∨ (leadingDot rest).1 = [.curDir] := by
  unfold leadingDot
  split
  · exact .inr rfl
  · split_ifs
    · exact .inr rfl
    · exact .inl rfl
  · exact .inl rfl

theorem leadingDot_append {rest : List Char} (hlong : 2 ≤ rest.length) (more : List Char) :
    leadingDot (rest ++ more) = ((leadingDot rest).1, (leadingDot rest).2 ++ more) := by
  obtain ⟨a, b, left, rfl⟩ : ∃ a b left, rest = a :: b :: left := by
    rcases rest with _ | ⟨a, _ | ⟨b, left⟩⟩
    all_goals simp_all
  by_cases hdot : a = '.'
  · subst hdot
    simp only [leadingDot, List.cons_append]
    split_ifs
    · rfl
    · rfl
  · have hother (left : List Char) : leadingDot (a :: b :: left) = ([], a :: b :: left) := by
      unfold leadingDot
      split
      · next heq => exact absurd (List.cons.inj heq).1 hdot
      · next heq => exact absurd (List.cons.inj heq).1 hdot
      · rfl
    rw [List.cons_append, List.cons_append, hother, hother]
    rfl

/-- A path of names has neither a prefix nor a root, and all of it is its body. -/
theorem parsePrefix_of_names (h : components path = names.map .normal) :
    parsePrefix path = ⟨none, [], path⟩ ∧ path.head?.any isSeparator = false ∧
      (path.splitOnP isSeparator).filterMap (pieceComponent false) = names.map .normal := by
  have hnormal : ∀ component ∈ components path, ∃ name, component = .normal name := by
    rw [h]
    intro component hmem
    obtain ⟨name, -, rfl⟩ := List.mem_map.mp hmem
    exact ⟨name, rfl⟩
  have hkind : (parsePrefix path).kind = none := by
    cases hkind : (parsePrefix path).kind with
    | none => rfl
    | some kind =>
        have hmem : PathComponent.prefixed kind (parsePrefix path).prefixText ∈ components path := by
          simp [components, Parsed.components, Parsed.prefixComponents, hkind]
        obtain ⟨_, heq⟩ := hnormal _ hmem
        cases heq
  have hparse := parsePrefix_of_none hkind
  have hcomponents : components path = (Parsed.startAndBody ⟨none, [], path⟩).1 ++
      bodyComponents ⟨none, [], path⟩ (Parsed.startAndBody ⟨none, [], path⟩).2 := by
    rw [components, hparse]
    rfl
  have hstart : ∀ component ∈ (Parsed.startAndBody ⟨none, [], path⟩).1,
      ∃ name, component = .normal name := fun component hmem =>
    hnormal component (by rw [hcomponents]; exact List.mem_append_left _ hmem)
  have hroot : path.head?.any isSeparator = false := by
    by_contra hphysical
    have hstarts : Parsed.startAndBody ⟨none, [], path⟩ = ([.rootDir], path.tail) :=
      if_pos (by simpa [Parsed.hasPhysicalRoot] using hphysical)
    rw [hstarts] at hstart
    obtain ⟨_, heq⟩ := hstart _ List.mem_cons_self
    cases heq
  have hdots : Parsed.startAndBody ⟨none, [], path⟩ = ([], path) := by
    have hstarts : Parsed.startAndBody ⟨none, [], path⟩ = leadingDot path :=
      if_neg (by simpa [Parsed.hasPhysicalRoot] using hroot)
    rw [hstarts] at hstart ⊢
    obtain heq | hcur := leadingDot_cases path
    · exact heq
    · rw [hcur] at hstart
      obtain ⟨_, heq⟩ := hstart _ List.mem_cons_self
      cases heq
  refine ⟨hparse, hroot, ?_⟩
  rw [hdots, List.nil_append] at hcomponents
  rw [← h, hcomponents]
  rfl

/-- A name that is one component wherever it stands. -/
theorem normal_of_mem_names (h : components path = names.map .normal) (hn : n ∈ names) :
    IsPiece (.normal n) := by
  obtain ⟨-, -, hbody⟩ := parsePrefix_of_names h
  have hmem : PathComponent.normal n ∈ (path.splitOnP isSeparator).filterMap (pieceComponent false) :=
    hbody ▸ List.mem_map_of_mem hn
  obtain ⟨piece, hpiece, hcomponent⟩ := List.mem_filterMap.mp hmem
  obtain rfl : n = piece := text_of_pieceComponent hcomponent
  refine ⟨?_, fun c hc => ?_⟩
  · unfold pieceComponent at hcomponent
    rw [if_neg Bool.false_ne_true] at hcomponent
    split_ifs at hcomponent with hempty hdot hdots
    · cases hcomponent
    · exact (if_neg hempty).trans ((if_neg hdot).trans (if_neg hdots))
  · have hplain := notSeparates_of_mem_splitOnP hpiece c hc
    by_contra hslash
    rw [Bool.not_eq_false] at hslash
    rw [isSeparator_of_isBackslash hslash] at hplain
    cases hplain

/-- Joining a path of names puts a separator where one is needed, below a verbatim path or not. -/
theorem join_of_names (h : components path = names.map .normal) (hne : names ≠ []) :
    join base path =
      if (parsePrefix base).isVerbatim then render false (components base ++ names.map .normal)
      else if needsSeparator base then base ++ '\\' :: path else base ++ path := by
  obtain ⟨hparse, hroot, -⟩ := parsePrefix_of_names h
  have hrooted : hasRoot path = false := by
    rw [hasRoot, hparse]
    simpa [Parsed.hasPhysicalRoot, Parsed.hasImplicitRoot] using hroot
  have hpath : (path != []) = true := by
    rw [bne_iff_ne]
    rintro rfl
    exact hne (List.map_eq_nil_iff.mp (h.symm.trans rfl))
  have hpush {cs : List PathComponent} :
      (names.map PathComponent.normal).foldl pushComponent cs = cs ++ names.map .normal := by
    clear h hne
    induction names generalizing cs with
    | nil => simp
    | cons first rest ih =>
        have hfirst : pushComponent cs (.normal first) = cs ++ [.normal first] := rfl
        rw [List.map_cons, List.foldl_cons, ih, hfirst, List.append_assoc]
        rfl
  rw [join, isAbsolute, hrooted, hparse]
  simp only [Bool.false_and, Option.isSome_none, Bool.or_self, Bool.false_eq_true, if_false, hpath,
    Bool.and_true, h, hpush]

/-- Below a verbatim path, a path of names leads to its names. -/
theorem join_verbatim (hbase : components base = .prefixed kind text :: (root ++ cs))
    (hverbatim : (parsePrefix base).isVerbatim = true) (hkind : kind.isVerbatim = true)
    (htext : text ≠ []) (hroot : root = [] ∨ root = [.rootDir])
    (hcs : ∀ component ∈ cs, IsPiece component) (h : components path = names.map .normal)
    (hne : names ≠ []) :
    join base path = text ++ joined (cs ++ names.map .normal) ∧
      ∀ component ∈ cs ++ names.map .normal, IsPiece component := by
  have hall : ∀ component ∈ cs ++ names.map .normal, IsPiece component := by
    intro component hmem
    obtain hmem | hmem := List.mem_append.mp hmem
    · exact hcs component hmem
    · obtain ⟨name, hname, rfl⟩ := List.mem_map.mp hmem
      exact normal_of_mem_names h hname
  have hsome : cs ++ names.map .normal ≠ [] := by simp [hne]
  refine ⟨?_, hall⟩
  rw [join_of_names h hne, if_pos hverbatim, hbase, List.cons_append, List.append_assoc,
    render_verbatim hkind htext hroot hall hsome]

/-- A drive is two characters long. -/
theorem rest_of_disk (hkind : (parsePrefix path).kind = some .disk) :
    ∃ a b, path = a :: b :: (parsePrefix path).rest := by
  have hverbatim {start rest : List Char} : (parseVerbatim start rest).kind ≠ some .disk := by
    intro hdisk
    have hall : (parseVerbatim start rest).isVerbatim = true := isVerbatim_parseVerbatim
    rw [Parsed.isVerbatim, hdisk] at hall
    cases hall
  have hserver {start rest : List Char} : (parseServer start rest).kind ≠ some .disk := by
    unfold parseServer
    dsimp only
    split
    · simp
    · split_ifs <;> simp
  have hdouble {a b : Char} {rest : List Char} : (parseDouble a b rest).kind ≠ some .disk := by
    unfold parseDouble
    split
    · split_ifs
      · exact hverbatim
      · exact hserver
    · split_ifs
      · simp
      · exact hserver
    · exact hserver
  unfold parsePrefix at hkind ⊢
  split at hkind
  · next a b rest =>
      split_ifs at hkind ⊢
      · exact absurd hkind hdouble
      · exact ⟨a, b, rfl⟩
  · cases hkind

/-- More of a path does not change how its body starts. -/
theorem startAndBody_append {parsed : Parsed} (more : List Char) (hrest : parsed.rest ≠ [])
    (hnone : parsed.kind = none → 2 ≤ parsed.rest.length) :
    (parsed.append more).startAndBody =
      (parsed.startAndBody.1, parsed.startAndBody.2 ++ more) := by
  obtain ⟨kind, text, rest⟩ := parsed
  obtain ⟨c, tail, rfl⟩ := List.exists_cons_of_ne_nil hrest
  by_cases hc : isSeparator c = true
  · have hstart (left : List Char) : Parsed.startAndBody ⟨kind, text, c :: left⟩ =
        ([.rootDir], left) := if_pos hc
    rw [hstart, Parsed.append, List.cons_append, hstart]
  · have hstart (left : List Char) : Parsed.startAndBody ⟨kind, text, c :: left⟩ =
        if kind.isSome then
          (if Parsed.hasImplicitRoot ⟨kind, text, c :: left⟩ &&
              !Parsed.isVerbatim ⟨kind, text, c :: left⟩ then [.rootDir] else [], c :: left)
        else leadingDot (c :: left) := if_neg hc
    rw [hstart, Parsed.append, List.cons_append, hstart]
    cases kind with
    | some kind => rfl
    | none => exact leadingDot_append (hnone rfl) more

/-- Below a path that is not verbatim and long enough, a path of names leads to its names. -/
theorem components_append_names (hlong : 4 ≤ base.length)
    (hplain : (parsePrefix base).isVerbatim = false)
    (hserver : ∃ c ∈ base.drop 2, isSeparator c = true) (h : components path = names.map .normal) :
    components (base ++ '\\' :: path) = components base ++ names.map .normal := by
  obtain ⟨-, -, hbody⟩ := parsePrefix_of_names h
  have hparse := @parsePrefix_append base ('\\' :: path) rfl hlong hplain hserver
  set parsed := parsePrefix base with hparsed
  have hsplit (body : List Char) : bodyComponents (parsed.append ('\\' :: path))
      (body ++ '\\' :: path) = bodyComponents parsed body ++ names.map .normal := by
    have hverbatim : (parsed.append ('\\' :: path)).isVerbatim = false := hplain
    rw [bodyComponents, bodyComponents, Parsed.separates, Parsed.separates, hverbatim, hplain,
      if_neg Bool.false_ne_true, List.splitOnP_append_cons _ _ rfl, List.filterMap_append, hbody]
  rw [components, hparse, Parsed.components]
  by_cases hrest : parsed.rest = []
  · -- the root was implied, and is written now
    have himplicit : parsed.hasImplicitRoot = true := by
      cases hkind : parsed.kind with
      | none =>
          have hwhole := parsePrefix_of_none hkind
          rw [← hparsed] at hwhole
          rw [hwhole] at hrest
          have hbase : base = [] := hrest
          rw [hbase] at hlong
          exact absurd hlong (by decide)
      | some kind =>
          rw [Parsed.hasImplicitRoot, hkind, Option.any_some, bne_iff_ne]
          rintro rfl
          obtain ⟨a, b, hab⟩ := rest_of_disk hkind
          rw [← hparsed, hrest] at hab
          rw [hab, List.length_cons, List.length_cons, List.length_nil] at hlong
          omega
    have hwritten : (parsed.append ('\\' :: path)).startAndBody = ([.rootDir], path) := by
      refine (if_pos ?_).trans ?_
      · simp [Parsed.hasPhysicalRoot, Parsed.append, hrest, isSeparator]
      · simp [Parsed.append, hrest]
    have himplied : parsed.startAndBody = ([.rootDir], []) := by
      have hphysical : parsed.hasPhysicalRoot = false := by
        rw [Parsed.hasPhysicalRoot, hrest]
        rfl
      have hsome : parsed.kind.isSome = true := by
        cases hkind : parsed.kind with
        | none =>
            rw [Parsed.hasImplicitRoot, hkind] at himplicit
            cases himplicit
        | some kind => rfl
      simp [Parsed.startAndBody, hphysical, hsome, himplicit, hplain, hrest]
    have hempty : bodyComponents parsed [] = [] := by simp [bodyComponents, pieceComponent]
    have hskip : bodyComponents (parsed.append ('\\' :: path)) path = names.map .normal := by
      rw [bodyComponents, Parsed.separates]
      have hverbatim : (parsed.append ('\\' :: path)).isVerbatim = false := hplain
      rw [hverbatim, if_neg Bool.false_ne_true, hbody]
    rw [hwritten, hskip, components, ← hparsed, Parsed.components, himplied, hempty, List.append_nil]
    rfl
  · have hstart := startAndBody_append ('\\' :: path) hrest fun hnone => by
      have hwhole := parsePrefix_of_none hnone
      rw [← hparsed] at hwhole
      rw [hwhole]
      exact (by decide : 2 ≤ 4).trans hlong
    rw [hstart, hsplit, ← List.append_assoc]
    rfl

/-! ### Below a directory that was joined from names -/

/-- A name that is long enough to be neither dots nor part of a prefix. -/
structure IsPlain (name : List Char) : Prop where
  long : 4 ≤ name.length
  plain : ∀ c ∈ name, isSeparator c = false ∧ c ≠ ':'

theorem IsPlain.components (h : IsPlain n) : components n = [n].map .normal := by
  obtain ⟨a, b, c, d, rest, rfl⟩ : ∃ a b c d rest, n = a :: b :: c :: d :: rest := by
    have hlong := h.long
    rcases n with _ | ⟨a, _ | ⟨b, _ | ⟨c, _ | ⟨d, rest⟩⟩⟩⟩
    all_goals simp_all
  have ha := (h.plain a (by simp)).1
  have hb := h.plain b (by simp)
  have hparse : parsePrefix (a :: b :: c :: d :: rest) = ⟨none, [], a :: b :: c :: d :: rest⟩ := by
    have hcolon : (b == ':') = false := by simpa using hb.2
    simp [parsePrefix, ha, hcolon]
  have hdot : leadingDot (a :: b :: c :: d :: rest) = ([], a :: b :: c :: d :: rest) := by
    unfold leadingDot
    split
    · next heq => simp at heq
    · next heq =>
        obtain ⟨-, rfl, rfl⟩ : a = '.' ∧ b = _ ∧ c :: d :: rest = _ := by simpa using heq
        rw [hb.1]
        simp_all
    · rfl
  have hstart : Parsed.startAndBody ⟨none, [], a :: b :: c :: d :: rest⟩ =
      ([], a :: b :: c :: d :: rest) := by
    refine (if_neg ?_).trans hdot
    simp [Parsed.hasPhysicalRoot, ha]
  have hbody : bodyComponents ⟨none, [], a :: b :: c :: d :: rest⟩ (a :: b :: c :: d :: rest) =
      [.normal (a :: b :: c :: d :: rest)] := by
    have hsplit : (a :: b :: c :: d :: rest).splitOnP isSeparator = [a :: b :: c :: d :: rest] :=
      List.splitOnP_eq_singleton fun e he => (h.plain e he).1
    show ((a :: b :: c :: d :: rest).splitOnP isSeparator).filterMap (pieceComponent false) = _
    rw [hsplit]
    simp [pieceComponent]
  rw [WindowsPath.components, hparse, Parsed.components, hstart, hbody]
  rfl

/-- After a plain name, a separator is needed. -/
theorem IsPlain.needsSeparator (h : IsPlain n) (start : List Char) :
    needsSeparator (start ++ n) = true := by
  obtain ⟨last, hlast⟩ : ∃ last, n.getLast? = some last := by
    cases hlast : n.getLast? with
    | none =>
        have hlong := h.long
        rw [List.getLast?_eq_none_iff.mp hlast] at hlong
        exact absurd hlong (by decide)
    | some last => exact ⟨last, rfl⟩
  have hend : (start ++ n).getLast?.any (fun c => !isSeparator c) = true := by
    rw [List.getLast?_append, hlast, Option.some_or, Option.any_some,
      (h.plain last (List.mem_of_getLast? hlast)).1]
    rfl
  have hdrive : ¬ ((parsePrefix (start ++ n)).kind = some .disk ∧
      (parsePrefix (start ++ n)).rest = []) := by
    rintro ⟨hdisk, hrest⟩
    obtain ⟨a, b, hab⟩ := rest_of_disk hdisk
    rw [hrest] at hab
    have hlength := congrArg List.length hab
    have hlong := h.long
    rw [List.length_append, List.length_cons, List.length_cons, List.length_nil] at hlength
    omega
  rw [WindowsPath.needsSeparator, hend, Bool.true_and, Bool.not_eq_true', ← Bool.decide_and,
    decide_eq_false_iff_not]
  exact hdrive

/-- Below a verbatim path whose prefix lasts. -/
theorem components_join_lasting (hlasting : Lasting kind text) (hkind : kind.isVerbatim = true)
    (hcs : ∀ component ∈ cs, IsPiece component) (h : components path = names.map .normal)
    (hne : names ≠ []) :
    ∃ root, (root = [] ∨ root = [.rootDir]) ∧
      components (join (text ++ joined cs) path) =
        components (text ++ joined cs) ++ (root ++ names.map .normal) := by
  have htext : text ≠ [] := by
    rintro rfl
    cases hlasting [] rfl
  have hparse : parsePrefix (text ++ joined cs) = ⟨some kind, text, joined cs⟩ := by
    refine hlasting (joined cs) ?_
    cases cs with
    | nil => rfl
    | cons first rest => rfl
  have hverbatim : (parsePrefix (text ++ joined cs)).isVerbatim = true := by
    rw [hparse]
    exact hkind
  have hjoin {root : List PathComponent} (hroot : root = [] ∨ root = [.rootDir])
      (hbase : components (text ++ joined cs) = .prefixed kind text :: (root ++ cs)) :
      components (join (text ++ joined cs) path) =
        .prefixed kind text :: .rootDir :: (cs ++ names.map .normal) := by
    obtain ⟨heq, hall⟩ := join_verbatim hbase hverbatim hkind htext hroot hcs h hne
    rw [heq]
    exact components_joined hlasting hkind hall (by simp [hne])
  cases cs with
  | nil =>
      have hbase : components (text ++ joined []) = [.prefixed kind text] := by
        rw [components, hparse, Parsed.components]
        simp [Parsed.prefixComponents, Parsed.startAndBody, Parsed.hasPhysicalRoot,
          Parsed.isVerbatim, hkind, joined, bodyComponents, pieceComponent]
      refine ⟨[.rootDir], .inr rfl, ?_⟩
      rw [hjoin (.inl rfl) hbase, hbase]
      rfl
  | cons first rest =>
      have hbase := components_joined hlasting hkind hcs (List.cons_ne_nil first rest)
      refine ⟨[], .inl rfl, ?_⟩
      rw [hjoin (.inr rfl) hbase, hbase]
      rfl

/-- A path that is joined from a verbatim one: its prefix, and pieces of which the last is the name. -/
theorem exists_join_verbatim (h : IsPlain n) (hverbatim : (parsePrefix base).isVerbatim = true) :
    ∃ cs, join base n = (parsePrefix base).prefixText ++ joined (cs ++ [.normal n]) ∧
      ∀ component ∈ cs ++ [.normal n], IsPiece component := by
  obtain ⟨kind, root, cs, hkind, hkindVerbatim, hbase, hroot, hcs⟩ :=
    components_of_isVerbatim hverbatim
  have htext : (parsePrefix base).prefixText ≠ [] := by
    intro hnil
    obtain ⟨other, -, -, hlasting⟩ | ⟨c, server, -, -, -, htext⟩ | heq := verbatim_cases hverbatim
    · rw [hnil] at hlasting
      cases hlasting [] rfl
    · rw [hnil] at htext
      cases htext
    · rw [heq] at hnil
      cases hnil
  exact ⟨cs, join_verbatim hbase hverbatim hkindVerbatim htext (hroot.imp And.left id) hcs
    h.components (List.cons_ne_nil n [])⟩

/-- A path that is joined from another one that is not verbatim. -/
theorem exists_join_plain (h : IsPlain n) (hplain : (parsePrefix base).isVerbatim = false) :
    join base n = if needsSeparator base then base ++ '\\' :: n else base ++ n := by
  rw [join_of_names h.components (List.cons_ne_nil n []), if_neg (by rw [hplain]; nofun)]

/-- What is joined ends in the name. -/
theorem exists_join_eq (h : IsPlain n) (base : List Char) : ∃ start, join base n = start ++ n := by
  cases hverbatim : (parsePrefix base).isVerbatim with
  | true =>
      obtain ⟨cs, heq, -⟩ := exists_join_verbatim h hverbatim
      refine ⟨(parsePrefix base).prefixText ++ joined cs ++ ['\\'], ?_⟩
      rw [heq, joined, joined, List.flatMap_append]
      simp [PathComponent.text]
  | false =>
      rw [exists_join_plain h hverbatim]
      split_ifs
      · exact ⟨base ++ ['\\'], by simp⟩
      · exact ⟨base, rfl⟩

/-- Below a directory that was joined from two names, and first with a path that is not verbatim. -/
theorem components_join_plain {first second : List Char} (hfirst : IsPlain first)
    (hsecond : IsPlain second) (hplain : (parsePrefix (join base first)).isVerbatim = false)
    (h : components path = names.map .normal) (hne : names ≠ []) :
    components (join (join (join base first) second) path) =
      components (join (join base first) second) ++ names.map .normal := by
  obtain ⟨start, hstart⟩ := exists_join_eq hfirst base
  have hdirectory : join (join base first) second = join base first ++ '\\' :: second := by
    rw [exists_join_plain hsecond hplain, if_pos (hstart ▸ hfirst.needsSeparator start)]
  have hlong : 4 ≤ (join base first).length := by
    rw [hstart, List.length_append]
    exact hfirst.long.trans (Nat.le_add_left _ _)
  have hstill : (parsePrefix (join base first ++ '\\' :: second)).isVerbatim = false := by
    by_contra hverbatim
    rw [Bool.not_eq_false] at hverbatim
    obtain ⟨rest, hrest⟩ := verbatimStart_of_isVerbatim hverbatim
    obtain ⟨left, hleft⟩ : verbatimStart <+: join base first :=
      List.prefix_of_prefix_length_le ⟨rest, hrest.symm⟩ (List.prefix_append _ _) hlong
    rw [← hleft, parsePrefix_verbatimStart, isVerbatim_parseVerbatim] at hplain
    cases hplain
  have hneeds : needsSeparator (join base first ++ '\\' :: second) = true := by
    rw [← List.singleton_append, ← List.append_assoc]
    exact hsecond.needsSeparator _
  rw [hdirectory, join_of_names h hne, if_neg (by rw [hstill]; nofun), if_pos hneeds]
  refine components_append_names ?_ hstill ⟨'\\', ?_, rfl⟩ h
  · rw [List.length_append]
    exact hlong.trans (Nat.le_add_right _ _)
  · rw [List.drop_append_of_le_length ((by decide : 2 ≤ 4).trans hlong)]
    exact List.mem_append_right _ List.mem_cons_self

/-- **Below a directory that was joined from two names, a path of names leads to its names**, whatever
the path was to which the two names were joined. -/
theorem components_join {first second : List Char} (hfirst : IsPlain first) (hsecond : IsPlain second)
    (h : components path = names.map .normal) (hne : names ≠ []) :
    ∃ root, (root = [] ∨ root = [.rootDir]) ∧
      components (join (join (join base first) second) path) =
        components (join (join base first) second) ++ (root ++ names.map .normal) := by
  cases hverbatim : (parsePrefix (join base first)).isVerbatim with
  | false => exact ⟨[], .inl rfl, components_join_plain hfirst hsecond hverbatim h hne⟩
  | true =>
      obtain ⟨cs, hjoin, hcs⟩ := exists_join_verbatim hsecond hverbatim
      rw [hjoin]
      obtain ⟨kind, -, hkind, hlasting⟩ | ⟨c, server, -, hc, hserver, htext⟩ | hbare :=
        verbatim_cases hverbatim
      · exact components_join_lasting hlasting hkind hcs h hne
      · -- the first piece is the share
        obtain ⟨share, rest, hpieces⟩ :=
          List.exists_cons_of_ne_nil (by simp : cs ++ [.normal second] ≠ [])
        rw [hpieces] at hcs ⊢
        obtain ⟨hshare, hrest⟩ := List.forall_mem_cons.mp hcs
        have hnonempty : share.text ≠ [] := by
          intro hnil
          have hpiece := hshare.piece
          rw [hnil] at hpiece
          cases hpiece
        have hlasting := lasting_share hc hserver hshare.plain hnonempty
        have heq : (parsePrefix (join base first)).prefixText ++ joined (share :: rest) =
            verbatimStart ++ ['U', 'N', 'C', c] ++ server ++ '\\' :: share.text ++ joined rest := by
          rw [htext, joined, List.flatMap_cons, ← joined]
          simp
        rw [heq]
        exact components_join_lasting hlasting rfl hrest h hne
      · -- the last four characters of the bare prefix have a separator
        obtain ⟨start, hstart⟩ := exists_join_eq hfirst base
        rw [hbare] at hstart
        have hlength : 7 = start.length + first.length := by
          rw [← List.length_append, ← hstart]
          rfl
        have hlong := hfirst.long
        have hshort : start.length ≤ 3 := by omega
        have hdrop : first = (verbatimStart ++ ['U', 'N', 'C']).drop start.length := by
          rw [hstart, List.drop_left]
        have hmem : '\\' ∈ first := by
          have hall : ∀ k ≤ 3, '\\' ∈ (verbatimStart ++ ['U', 'N', 'C']).drop k := by decide
          rw [hdrop]
          exact hall _ hshort
        cases (hfirst.plain _ hmem).1

end names

end OpenGuard.Lib.WindowsPath
