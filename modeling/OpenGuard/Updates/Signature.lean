import OpenGuard.Lib.DecodeSame
import OpenGuard.Updates.Staging

/-!
# The signature covers the whole manifest

The bytes that are signed say which document was signed, up to the order of its keys. A manifest
that carries the signature of a document is what that document says, and another spelling of the
same document is taken for the same manifest.

* `canonicalManifestBytes_eq_iff`: the signed bytes of two documents.
* `manifest_of_signed`: a manifest that is accepted under the signature of a document.
* `verifyManifest_congr`: spellings of one document.
-/

namespace OpenGuard.Updates

open OpenGuard.Lib OpenGuard.Lib.Json

/-- A document: a value of null, booleans, integers, strings, arrays and objects. -/
structure IsDocument (j : Json) : Prop where
  distinct : DistinctKeys j
  noFloat : NoFloat j

section documents

variable {j j' : Json}

theorem utf8_injective {s t : String} (h : FileTree.utf8 s = FileTree.utf8 t) : s = t := by
  have hread := FileTree.fromUTF8?_utf8 s
  rw [h, FileTree.fromUTF8?_utf8] at hread
  exact (Option.some.inj hread).symm

/-- Documents have the same signed bytes exactly when they are the same. -/
theorem canonicalManifestBytes_eq_iff (hj : IsDocument j) (hj' : IsDocument j') :
    canonicalManifestBytes j = canonicalManifestBytes j' ↔ SameValue j j' := by
  rw [← canonicalText_eq_iff hj.distinct hj'.distinct hj.noFloat hj'.noFloat]
  exact ⟨utf8_injective, congrArg FileTree.utf8⟩

end documents

/-! ## The decoders of a manifest -/

section decoders

variable {j : Json} {item : ContentFile} {manifest : ContentManifest}

theorem decodeContentFile_eq_ok : decodeContentFile j = .ok item ↔
    ∃ found, structEntries ["path", "url", "sha256", "size"] 4 true j = .ok found ∧
      readField found "path" decodeString = .ok item.path ∧
      readField found "url" decodeString = .ok item.url ∧
      readField found "sha256" decodeString = .ok item.sha256 ∧
      readField found "size" (decodeUnsigned 64 UInt64.ofNat) = .ok item.size := by
  simp only [decodeContentFile, bind_eq_ok, pure_eq_ok]
  constructor
  · rintro ⟨found, hfound, path, hpath, url, hurl, sha256, hsha256, size, hsize, rfl⟩
    exact ⟨found, hfound, hpath, hurl, hsha256, hsize⟩
  · rintro ⟨found, hfound, hpath, hurl, hsha256, hsize⟩
    exact ⟨found, hfound, _, hpath, _, hurl, _, hsha256, _, hsize, rfl⟩

theorem decodeContentManifest_eq_ok : decodeContentManifest j = .ok manifest ↔
    ∃ found, structEntries ["schema", "version", "published_at", "files", "signature"] 5 true j =
        .ok found ∧
      readField found "schema" (decodeUnsigned 32 UInt32.ofNat) = .ok manifest.schema ∧
      readField found "version" decodeString = .ok manifest.version ∧
      readField found "published_at" decodeString = .ok manifest.publishedAt ∧
      readField found "files" (decodeVec decodeContentFile) = .ok manifest.files ∧
      readField found "signature" decodeString = .ok manifest.signature := by
  simp only [decodeContentManifest, bind_eq_ok, pure_eq_ok]
  constructor
  · rintro ⟨found, hfound, schema, hschema, version, hversion, published, hpublished, files, hfiles,
      signature, hsignature, rfl⟩
    exact ⟨found, hfound, hschema, hversion, hpublished, hfiles, hsignature⟩
  · rintro ⟨found, hfound, hschema, hversion, hpublished, hfiles, hsignature⟩
    exact ⟨found, hfound, _, hschema, _, hversion, _, hpublished, _, hfiles, _, hsignature, rfl⟩

theorem ofValues_decodeContentFile : OfValues decodeContentFile := by
  have hsize := ofValues_decodeUnsigned 64 UInt64.ofNat
  constructor
  · intro j j' item hj hj' hsame h
    obtain ⟨found, hfound, hpath, hurl, hsha256, hsizes⟩ := decodeContentFile_eq_ok.mp h
    obtain ⟨found', hfound', hfields⟩ := structEntries_same hj hj' hsame hfound
    exact decodeContentFile_eq_ok.mpr ⟨found', hfound',
      readField_same ofValues_decodeString hfields hpath,
      readField_same ofValues_decodeString hfields hurl,
      readField_same ofValues_decodeString hfields hsha256, readField_same hsize hfields hsizes⟩
  · intro j item hj h
    obtain ⟨found, hfound, hpath, hurl, hsha256, hsizes⟩ := decodeContentFile_eq_ok.mp h
    refine noFloat_of_structEntries (by decide) hj hfound fun name value hname hvalue => ?_
    have hdistinct := distinctKeys_of_structEntries hj hfound hvalue
    simp only [List.mem_cons, List.not_mem_nil, or_false] at hname
    rcases hname with rfl | rfl | rfl | rfl
    · exact noFloat_of_readField ofValues_decodeString hpath hvalue hdistinct
    · exact noFloat_of_readField ofValues_decodeString hurl hvalue hdistinct
    · exact noFloat_of_readField ofValues_decodeString hsha256 hvalue hdistinct
    · exact noFloat_of_readField hsize hsizes hvalue hdistinct

theorem ofValues_decodeContentManifest : OfValues decodeContentManifest := by
  have hschema := ofValues_decodeUnsigned 32 UInt32.ofNat
  have hfiles := ofValues_decodeVec ofValues_decodeContentFile
  constructor
  · intro j j' manifest hj hj' hsame h
    obtain ⟨found, hfound, hschemas, hversion, hpublished, hitems, hsignature⟩ :=
      decodeContentManifest_eq_ok.mp h
    obtain ⟨found', hfound', hfields⟩ := structEntries_same hj hj' hsame hfound
    exact decodeContentManifest_eq_ok.mpr ⟨found', hfound',
      readField_same hschema hfields hschemas,
      readField_same ofValues_decodeString hfields hversion,
      readField_same ofValues_decodeString hfields hpublished,
      readField_same hfiles hfields hitems,
      readField_same ofValues_decodeString hfields hsignature⟩
  · intro j manifest hj h
    obtain ⟨found, hfound, hschemas, hversion, hpublished, hitems, hsignature⟩ :=
      decodeContentManifest_eq_ok.mp h
    refine noFloat_of_structEntries (by decide) hj hfound fun name value hname hvalue => ?_
    have hdistinct := distinctKeys_of_structEntries hj hfound hvalue
    simp only [List.mem_cons, List.not_mem_nil, or_false] at hname
    rcases hname with rfl | rfl | rfl | rfl | rfl
    · exact noFloat_of_readField hschema hschemas hvalue hdistinct
    · exact noFloat_of_readField ofValues_decodeString hversion hvalue hdistinct
    · exact noFloat_of_readField ofValues_decodeString hpublished hvalue hdistinct
    · exact noFloat_of_readField hfiles hitems hvalue hdistinct
    · exact noFloat_of_readField ofValues_decodeString hsignature hvalue hdistinct

end decoders

/-! ## What documents say -/

/-- What is said of a file, by the names of the fields or in their order. -/
def SaysFile (item : Json) (file : ContentFile) : Prop :=
  (∃ entries, item = .object entries ∧ entries.lookup "path" = some (.string file.path) ∧
      entries.lookup "url" = some (.string file.url) ∧
      entries.lookup "sha256" = some (.string file.sha256) ∧
      entries.lookup "size" = some (.int file.size.toNat)) ∨
    item = .array [.string file.path, .string file.url, .string file.sha256,
      .int file.size.toNat]

/-- What a document states of a version. -/
structure Says (entries : List (String × Json)) (manifest : ContentManifest) : Prop where
  schema : entries.lookup "schema" = some (.int manifest.schema.toNat)
  version : entries.lookup "version" = some (.string manifest.version)
  publishedAt : entries.lookup "published_at" = some (.string manifest.publishedAt)
  files : ∃ items, entries.lookup "files" = some (.array items) ∧
    List.Forall₂ SaysFile items manifest.files

section fields

variable {j : Json} {entries found : List (String × Json)} {names : List String} {name : String}
  {item : ContentFile} {manifest : ContentManifest}

/-- A number that is read is the number of the value. -/
theorem readField_unsigned {α : Type} {bits : ℕ} {ofNat : ℕ → α} {toNat : α → ℕ} {a : α}
    (hofNat : ∀ n, n < 2 ^ bits → toNat (ofNat n) = n)
    (h : readField found name (decodeUnsigned bits ofNat) = .ok a) :
    found.lookup name = some (.int (toNat a)) := by
  unfold readField at h
  rcases hvalue : found.lookup name with _ | value
  · rw [hvalue] at h
    cases h
  · rw [hvalue] at h
    cases value with
    | int n =>
        dsimp only [decodeUnsigned] at h
        split_ifs at h with hrange
        have hlt : n.toNat < 2 ^ bits := by
          rw [Int.toNat_lt hrange.1, Int.natCast_pow]
          exact hrange.2
        rw [← Except.ok.inj h, hofNat _ hlt, Int.toNat_of_nonneg hrange.1]
    | _ => cases h

/-- A known field is found where it stands. -/
theorem lookup_of_knownEntries (h : knownEntries names true entries = .ok found)
    (hname : name ∈ names) : found.lookup name = entries.lookup name := by
  obtain ⟨-, -, rfl⟩ := knownEntries_eq_ok_iff.mp h
  exact lookup_filter (fun key => decide (key ∈ names)) (decide_eq_true hname)

theorem saysFile_of_decode (h : decodeContentFile j = .ok item) : SaysFile j item := by
  obtain ⟨found, hfound, hpath, hurl, hsha256, hsize⟩ := decodeContentFile_eq_ok.mp h
  rw [readField_string_eq_ok] at hpath hurl hsha256
  have hnumber := readField_unsigned (fun n hn => UInt64.toNat_ofNat_of_lt' hn) hsize
  cases j with
  | object entries =>
      refine .inl ⟨entries, rfl, ?_, ?_, ?_, ?_⟩
      · rwa [← lookup_of_knownEntries hfound (by decide)]
      · rwa [← lookup_of_knownEntries hfound (by decide)]
      · rwa [← lookup_of_knownEntries hfound (by decide)]
      · rwa [← lookup_of_knownEntries hfound (by decide)]
  | array items =>
      rw [structEntries] at hfound
      split_ifs at hfound with hrange
      obtain ⟨path, url, sha256, size, rfl⟩ :=
        List.length_eq_four.mp (Nat.le_antisymm hrange.2 hrange.1)
      rw [← Except.ok.inj hfound] at hpath hurl hsha256 hnumber
      obtain rfl := Option.some.inj hpath
      obtain rfl := Option.some.inj hurl
      obtain rfl := Option.some.inj hsha256
      obtain rfl := Option.some.inj hnumber
      exact .inr rfl
  | _ => cases hfound

/-- A manifest is what its document says. -/
theorem says_of_decode {text : String}
    (h : decodeContentManifest (.object (entries ++ [("signature", .string text)])) =
      .ok manifest) : Says entries manifest := by
  obtain ⟨found, hfound, hschema, hversion, hpublished, hfiles, -⟩ :=
    decodeContentManifest_eq_ok.mp h
  rw [readField_string_eq_ok] at hversion hpublished
  have hnumber := readField_unsigned (fun n hn => UInt32.toNat_ofNat_of_lt' hn) hschema
  have hplace : ∀ {name value}, name ∈ ["schema", "version", "published_at", "files"] →
      found.lookup name = some value → entries.lookup name = some value := by
    intro name value hname hvalue
    have hknown : name ∈ ["schema", "version", "published_at", "files", "signature"] := by
      simp only [List.mem_cons, List.not_mem_nil, or_false] at hname ⊢
      tauto
    rw [lookup_of_knownEntries hfound hknown, List.lookup_append] at hvalue
    have hne : name ≠ "signature" := by
      rintro rfl
      simp at hname
    simpa [List.lookup_cons, beq_eq_false_iff_ne.mpr hne] using hvalue
  refine ⟨hplace (by simp) hnumber, hplace (by simp) hversion, hplace (by simp) hpublished, ?_⟩
  unfold readField at hfiles
  rcases hitems : found.lookup "files" with _ | value
  · rw [hitems] at hfiles
    cases hfiles
  · rw [hitems] at hfiles
    cases value with
    | array items =>
        refine ⟨items, hplace (by simp) hitems, ?_⟩
        exact (mapM_eq_ok.mp hfiles).imp fun item file => saysFile_of_decode
    | _ => cases hfiles

end fields

/-! ## The signature of a document -/

/-- The document with its signature. -/
def complete (entries : List (String × Json)) (text : String) : Json :=
  .object (entries ++ [("signature", .string text)])

section taken

variable {j j' : Json} {text : String} {entries others all : List (String × Json)}

theorem takeSignature_eq_some : takeSignature j = some (text, entries) ↔
    ∃ all, j = .object all ∧ all.lookup "signature" = some (.string text) ∧
      entries = all.filter fun entry => entry.1 ≠ "signature" := by
  constructor
  · intro h
    unfold takeSignature at h
    split at h
    · next all =>
        split at h
        · next found hfound =>
            obtain ⟨rfl, rfl⟩ := Prod.mk.inj (Option.some.inj h)
            exact ⟨all, rfl, hfound, rfl⟩
        · cases h
    · cases h
  · rintro ⟨all, rfl, hlookup, rfl⟩
    rw [takeSignature, hlookup]

/-- What is found apart from the signature. -/
theorem lookup_unsigned (all : List (String × Json)) (name : String) :
    (all.filter fun entry => entry.1 ≠ "signature").lookup name =
      if name = "signature" then none else all.lookup name := by
  split_ifs with hname
  · rw [lookup_eq_none_iff_fst, hname]
    intro hmem
    obtain ⟨entry, hentry, heq⟩ := List.mem_map.mp hmem
    simpa [heq] using (List.mem_filter.mp hentry).2
  · exact lookup_filter (fun key => decide (key ≠ "signature")) (by simpa using hname)

theorem lookup_complete (entries : List (String × Json)) (text name : String) :
    (entries ++ [("signature", Json.string text)]).lookup name =
      (entries.lookup name).or (if name = "signature" then some (.string text) else none) := by
  rw [List.lookup_append]
  congr 1
  rw [List.lookup_cons, List.lookup_nil]
  by_cases hname : name = "signature"
  · rw [if_pos hname, beq_iff_eq.mpr hname]
  · rw [if_neg hname, beq_eq_false_iff_ne.mpr hname]

theorem distinctKeys_unsigned (h : DistinctKeys (.object all)) :
    DistinctKeys (.object (all.filter fun entry => entry.1 ≠ "signature")) := by
  refine ⟨h.1.sublist (List.filter_sublist.map Prod.fst), distinctKeysEntries_iff.mpr ?_⟩
  exact fun entry hentry => distinctKeysEntries_iff.mp h.2 entry (List.mem_of_mem_filter hentry)

theorem distinctKeys_complete (h : DistinctKeys (.object entries))
    (hnone : entries.lookup "signature" = none) : DistinctKeys (complete entries text) := by
  constructor
  · rw [List.map_append, List.nodup_append]
    refine ⟨h.1, List.nodup_singleton _, fun name hname other hother heq => ?_⟩
    have hkey : other = "signature" := List.mem_singleton.mp hother
    rw [heq, hkey] at hname
    exact lookup_eq_none_iff_fst.mp hnone hname
  · refine distinctKeysEntries_iff.mpr fun entry hentry => ?_
    rcases List.mem_append.mp hentry with hmem | hmem
    · exact distinctKeysEntries_iff.mp h.2 entry hmem
    · rw [List.mem_singleton.mp hmem]
      trivial

/-- The same documents with the same signature are the same. -/
theorem sameValue_complete (h : DistinctKeys (.object entries))
    (hnone : entries.lookup "signature" = none)
    (hsame : SameValue (.object entries) (.object others)) :
    SameValue (complete entries text) (complete others text) := by
  refine (sameValue_object (distinctKeys_complete h hnone).1).mpr fun name => ?_
  have hname := (sameValue_object h.1).mp hsame name
  rw [lookup_complete, lookup_complete]
  cases hentries : entries.lookup name with
  | none =>
      rw [hentries] at hname
      cases hothers : others.lookup name with
      | none =>
          rw [Option.none_or]
          split_ifs
          · exact .some rfl
          · exact .none
      | some value' =>
          rw [hothers] at hname
          cases hname
  | some value =>
      rw [hentries] at hname
      cases hothers : others.lookup name with
      | none =>
          rw [hothers] at hname
          cases hname
      | some value' =>
          rw [hothers] at hname
          exact hname

/-- The same documents without their signatures are the same. -/
theorem sameValue_unsigned {all' : List (String × Json)} (h : DistinctKeys (.object all))
    (hsame : SameValue (.object all) (.object all')) :
    SameValue (.object (all.filter fun entry => entry.1 ≠ "signature"))
      (.object (all'.filter fun entry => entry.1 ≠ "signature")) := by
  refine (sameValue_object (distinctKeys_unsigned h).1).mpr fun name => ?_
  rw [lookup_unsigned, lookup_unsigned]
  split_ifs
  · exact .none
  · exact (sameValue_object h.1).mp hsame name

end taken

/-! ## Verified manifests -/

section verified

variable {crates : Crates} {bytes bytes' signature : List UInt8} {manifest : ContentManifest}
  {text text' document : Json}

/-- What it takes for a manifest to be verified. -/
theorem verifyManifest_eq_ok : verifyManifest crates bytes = .ok manifest ↔
    bytes.length ≤ manifestLimit ∧ ∃ text, crates.parseJson bytes = .ok text ∧
      ∃ carried entries, takeSignature text.toValue = some (carried, entries) ∧
        ∃ signature, crates.base64 carried = some signature ∧
          (signature.length = 64 ∧
            crates.verifyStrict (canonicalManifestBytes (.object entries)) signature) ∧
          decodeContentManifest (complete entries carried) = .ok manifest ∧
          validateManifestFields crates manifest = .ok () := by
  simp only [verifyManifest, bind_eq_ok, ensure_eq_ok, okOr_eq_ok, mapError_eq_ok, pure_eq_ok,
    exists_const, complete]
  constructor
  · rintro ⟨hlength, text, htext, ⟨carried, entries⟩, htaken, signature, hsignature, hverified,
      manifest, hdecoded, _, hvalid, rfl⟩
    exact ⟨hlength, text, htext, carried, entries, htaken, signature, hsignature, hverified,
      hdecoded, hvalid⟩
  · rintro ⟨hlength, text, htext, carried, entries, htaken, signature, hsignature, hverified,
      hdecoded, hvalid⟩
    exact ⟨hlength, text, htext, (carried, entries), htaken, signature, hsignature, hverified,
      manifest, hdecoded, (), hvalid, rfl⟩

/-- The manifest has the signature that was taken out. -/
theorem signature_of_complete {entries : List (String × Json)} {carried : String}
    (hnone : entries.lookup "signature" = none)
    (h : decodeContentManifest (complete entries carried) = .ok manifest) :
    manifest.signature = carried := by
  obtain ⟨found, hfound, -, -, -, -, hsignature⟩ := decodeContentManifest_eq_ok.mp h
  obtain ⟨-, -, rfl⟩ := knownEntries_eq_ok_iff.mp hfound
  have hlookup : ((entries ++ [("signature", Json.string carried)]).filter
      (·.1 ∈ ["schema", "version", "published_at", "files", "signature"])).lookup "signature" =
        some (.string carried) := by
    rw [lookup_filter (fun key => decide (key ∈ ["schema", "version", "published_at", "files",
      "signature"])) (by decide), lookup_complete, hnone]
    rfl
  rw [readField_of_lookup hlookup] at hsignature
  exact (Except.ok.inj hsignature).symm

/-- **A manifest that carries the signature of a document is what that document says**, when the
signature verifies nothing else. -/
theorem manifest_of_signed (hverified : verifyManifest crates bytes = .ok manifest)
    (hcarried : crates.base64 manifest.signature = some signature)
    (hsigned : ∀ message, crates.verifyStrict message signature →
      message = canonicalManifestBytes document)
    (hdocument : IsDocument document) :
    ∃ entries, document = .object entries ∧
      decodeContentManifest (complete entries manifest.signature) = .ok manifest ∧
      Says entries manifest := by
  obtain ⟨-, text, -, carried, entries, htaken, signature', hbase64, ⟨-, hstrict⟩, hdecoded, -⟩ :=
    verifyManifest_eq_ok.mp hverified
  obtain ⟨all, hall, -, rfl⟩ := takeSignature_eq_some.mp htaken
  have hdistinct : DistinctKeys (.object all) := hall ▸ distinctKeys_toValue text
  have hnone := lookup_unsigned all "signature"
  rw [if_pos rfl] at hnone
  have hunsigned := distinctKeys_unsigned hdistinct
  obtain rfl := signature_of_complete hnone hdecoded
  rw [hbase64] at hcarried
  rw [Option.some.inj hcarried] at hstrict
  have hfloat := ofValues_decodeContentManifest.noFloat (distinctKeys_complete hunsigned hnone)
    hdecoded
  have hpart : IsDocument (.object (all.filter fun entry => entry.1 ≠ "signature")) := by
    refine ⟨hunsigned, noFloatEntries_iff.mpr fun entry hentry => ?_⟩
    exact noFloatEntries_iff.mp hfloat entry (List.mem_append_left _ hentry)
  have hsame := (canonicalManifestBytes_eq_iff hpart hdocument).mp (hsigned _ hstrict)
  cases document with
  | object others =>
      refine ⟨others, rfl, ?_⟩
      have hothers : others.lookup "signature" = none := by
        have hrel := (sameValue_object hunsigned.1).mp hsame "signature"
        rw [hnone] at hrel
        cases hlookup : others.lookup "signature" with
        | none => rfl
        | some value =>
            rw [hlookup] at hrel
            cases hrel
      have hmanifest := ofValues_decodeContentManifest.same (distinctKeys_complete hunsigned hnone)
        (distinctKeys_complete hdocument.distinct hothers)
        (sameValue_complete hunsigned hnone hsame) hdecoded
      exact ⟨hmanifest, says_of_decode hmanifest⟩
  | _ => exact hsame.elim

/-- Another spelling of a document that is accepted is accepted as the same manifest. -/
theorem verifyManifest_of_same (hlength : bytes'.length ≤ manifestLimit)
    (htext : crates.parseJson bytes = .ok text) (htext' : crates.parseJson bytes' = .ok text')
    (hdistinct : DistinctKeys text) (hdistinct' : DistinctKeys text')
    (hsame : SameValue text text') (h : verifyManifest crates bytes = .ok manifest) :
    verifyManifest crates bytes' = .ok manifest := by
  obtain ⟨-, parsed, hparsed, carried, entries, htaken, signature, hbase64, ⟨hsize, hstrict⟩,
    hdecoded, hvalid⟩ := verifyManifest_eq_ok.mp h
  rw [htext] at hparsed
  obtain rfl := Except.ok.inj hparsed
  rw [toValue_eq_self hdistinct] at htaken
  obtain ⟨all, rfl, hlookup, rfl⟩ := takeSignature_eq_some.mp htaken
  cases text' with
  | object all' =>
      obtain ⟨value', hlookup', hvalue'⟩ := hsame.lookup hlookup
      have hcarried : value' = .string carried := by
        cases value' with
        | string other => exact congrArg Json.string (Eq.symm hvalue')
        | _ => exact hvalue'.elim
      rw [hcarried] at hlookup'
      have hunsigned := distinctKeys_unsigned hdistinct
      have hunsigned' := distinctKeys_unsigned hdistinct'
      have hparts := sameValue_unsigned hdistinct hsame
      have hnone := (lookup_unsigned all "signature").trans (if_pos rfl)
      have hnone' := (lookup_unsigned all' "signature").trans (if_pos rfl)
      refine verifyManifest_eq_ok.mpr ⟨hlength, .object all', htext', carried,
        all'.filter fun entry => entry.1 ≠ "signature", ?_, signature, hbase64, ⟨hsize, ?_⟩, ?_,
        hvalid⟩
      · rw [toValue_eq_self hdistinct']
        exact takeSignature_eq_some.mpr ⟨all', rfl, hlookup', rfl⟩
      · -- the same bytes are covered
        rwa [canonicalManifestBytes, ← canonicalText_congr hunsigned hunsigned' hparts]
      · exact ofValues_decodeContentManifest.same (distinctKeys_complete hunsigned hnone)
          (distinctKeys_complete hunsigned' hnone') (sameValue_complete hunsigned hnone hparts)
          hdecoded
  | _ => exact hsame.elim

/-- **Spellings of one document are taken for the same manifest**, or none is accepted. -/
theorem verifyManifest_congr (hlength : bytes.length ≤ manifestLimit)
    (hlength' : bytes'.length ≤ manifestLimit) (htext : crates.parseJson bytes = .ok text)
    (htext' : crates.parseJson bytes' = .ok text') (hdistinct : DistinctKeys text)
    (hdistinct' : DistinctKeys text') (hsame : SameValue text text') :
    verifyManifest crates bytes = .ok manifest ↔ verifyManifest crates bytes' = .ok manifest :=
  ⟨verifyManifest_of_same hlength' htext htext' hdistinct hdistinct' hsame,
    verifyManifest_of_same hlength htext' htext hdistinct' hdistinct
      (hsame.symm hdistinct hdistinct')⟩

end verified

/-- **The signature covers the whole manifest.** Signed bytes are those of one document, up to the
order of its keys; a manifest that carries the signature of a document is what it states; and the
spelling of a document matters neither to its acceptance nor to the manifest. -/
theorem signature_covers_manifest (crates : Crates) :
    (∀ j j', IsDocument j → IsDocument j' →
      (canonicalManifestBytes j = canonicalManifestBytes j' ↔ SameValue j j')) ∧
    (∀ bytes manifest signature document, verifyManifest crates bytes = .ok manifest →
      crates.base64 manifest.signature = some signature →
      (∀ message, crates.verifyStrict message signature →
        message = canonicalManifestBytes document) →
      IsDocument document → ∃ entries, document = .object entries ∧
        decodeContentManifest (complete entries manifest.signature) = .ok manifest ∧
        Says entries manifest) ∧
    ∀ bytes bytes' text text', bytes.length ≤ manifestLimit → bytes'.length ≤ manifestLimit →
      crates.parseJson bytes = .ok text → crates.parseJson bytes' = .ok text' →
      DistinctKeys text → DistinctKeys text' → SameValue text text' →
      ∀ manifest, verifyManifest crates bytes = .ok manifest ↔
        verifyManifest crates bytes' = .ok manifest :=
  ⟨fun _ _ => canonicalManifestBytes_eq_iff,
    fun _ _ _ _ hverified hcarried hsigned hdocument =>
      manifest_of_signed hverified hcarried hsigned hdocument,
    fun _ _ _ _ hlength hlength' htext htext' hdistinct hdistinct' hsame _ =>
      verifyManifest_congr hlength hlength' htext htext' hdistinct hdistinct' hsame⟩

/-! ## A manifest in two spellings -/

/-- The keys the other way round. -/
def reorderedJson (manifest : ContentManifest) : Json :=
  .object (("signature", .string manifest.signature) :: (unsignedEntries manifest).reverse)

/-- Functions that are those of the other crates on both spellings. -/
def spellingCrates : Crates :=
  { sampleCrates rulesOnlyManifest rulesOnlySignature with
    parseJson := fun bytes =>
      if bytes = manifestText rulesOnlyManifest then .ok (manifestJson rulesOnlyManifest)
      else .ok (reorderedJson rulesOnlyManifest)
    verifyStrict := fun message given =>
      message = canonicalManifestBytes (.object (unsignedEntries rulesOnlyManifest)) &&
        given = rulesOnlySignature }

/-- Its text. -/
def reorderedText (manifest : ContentManifest) : List UInt8 :=
  FileTree.utf8 (reorderedJson manifest).render

section spellings

variable {crates : Crates} (manifest : ContentManifest)

theorem isDocument_unsigned : IsDocument (.object (unsignedEntries manifest)) := by
  refine ⟨⟨by simp [unsignedEntries], trivial, trivial, trivial, ?_, trivial⟩,
    trivial, trivial, trivial, ?_, trivial⟩
  · refine distinctKeysItems_iff.mpr fun item hitem => ?_
    obtain ⟨file, -, rfl⟩ := List.mem_map.mp hitem
    exact ⟨by simp, trivial, trivial, trivial, trivial, trivial⟩
  · refine noFloatItems_iff.mpr fun item hitem => ?_
    obtain ⟨file, -, rfl⟩ := List.mem_map.mp hitem
    exact ⟨trivial, trivial, trivial, trivial, trivial⟩

theorem distinctKeys_manifestJson : DistinctKeys (manifestJson manifest) := by
  have hcomplete : DistinctKeys (complete (unsignedEntries manifest) manifest.signature) :=
    distinctKeys_complete (isDocument_unsigned manifest).distinct (by simp [unsignedEntries])
  exact hcomplete

theorem reorderedJson_eq : reorderedJson manifest = .object
    (unsignedEntries manifest ++ [("signature", Json.string manifest.signature)]).reverse := by
  rw [List.reverse_append]
  rfl

theorem noFloat_manifestJson : NoFloat (manifestJson manifest) := by
  refine noFloatEntries_iff.mpr fun entry hentry => ?_
  rw [← List.mem_reverse] at hentry
  rcases List.mem_cons.mp hentry with rfl | hmem
  · trivial
  · exact noFloatEntries_iff.mp (isDocument_unsigned manifest).noFloat entry
      (List.mem_reverse.mp hmem)

theorem noFloat_reorderedJson : NoFloat (reorderedJson manifest) := by
  rw [reorderedJson_eq]
  exact noFloatEntries_iff.mpr fun entry hentry =>
    noFloatEntries_iff.mp (noFloat_manifestJson manifest) entry (List.mem_reverse.mp hentry)

theorem length_reorderedText :
    (reorderedText manifest).length = (manifestText manifest).length := by
  have hsize : (reorderedJson manifest).byteSize = (manifestJson manifest).byteSize := by
    rw [reorderedJson_eq, manifestJson_eq, byteSize_object, byteSize_object, List.map_reverse,
      List.sum_reverse, List.length_reverse]
  rw [reorderedText, manifestText, FileTree.length_utf8, FileTree.length_utf8]
  exact hsize

end spellings

/-- An object is the same the other way round. -/
theorem sameValue_reverse {entries : List (String × Json)}
    (h : DistinctKeys (.object entries)) :
    SameValue (.object entries) (.object entries.reverse) := by
  refine (sameValue_object h.1).mpr fun name => ?_
  rw [lookup_reverse h.1]
  cases hvalue : entries.lookup name with
  | none => exact .none
  | some value => exact .some (SameValue.refl (h.lookup hvalue))

theorem distinctKeys_reverse {entries : List (String × Json)}
    (h : DistinctKeys (.object entries)) : DistinctKeys (.object entries.reverse) := by
  refine ⟨by rw [List.map_reverse, List.nodup_reverse]; exact h.1, ?_⟩
  refine distinctKeysEntries_iff.mpr fun entry hentry => ?_
  exact distinctKeysEntries_iff.mp h.2 entry (List.mem_reverse.mp hentry)

theorem length_rulesOnlyText : (manifestText rulesOnlyManifest).length ≤ manifestLimit :=
  (length_manifestText_le _).trans (by decide)

theorem parse_manifestText : spellingCrates.parseJson (manifestText rulesOnlyManifest) =
    .ok (manifestJson rulesOnlyManifest) := by
  simp only [spellingCrates, ↓reduceIte]

theorem parse_reorderedText : spellingCrates.parseJson (reorderedText rulesOnlyManifest) =
    .ok (reorderedJson rulesOnlyManifest) := by
  have hne : reorderedText rulesOnlyManifest ≠ manifestText rulesOnlyManifest := by
    intro h
    have hjson := render_injective (noFloat_reorderedJson _) (noFloat_manifestJson _)
      (utf8_injective h)
    rw [manifestJson_eq, reorderedJson, Json.object.injEq] at hjson
    have hname := congrArg Prod.fst (List.cons.inj hjson).1
    exact absurd hname (by decide)
  simp only [spellingCrates, hne, ↓reduceIte]

theorem spelling_verified : verifyManifest spellingCrates (manifestText rulesOnlyManifest) =
    .ok rulesOnlyManifest := by
  have hbase64 : spellingCrates.base64 rulesOnlyManifest.signature = some rulesOnlySignature := by
    simp only [spellingCrates, sampleCrates, ↓reduceIte]
  have hstrict : spellingCrates.verifyStrict
      (canonicalManifestBytes (.object (unsignedEntries rulesOnlyManifest)))
        rulesOnlySignature := by
    simp [spellingCrates]
  apply verifyManifest_manifestText length_rulesOnlyText parse_manifestText hbase64 ⟨rfl, hstrict⟩
  have hurls (url : String) : validateHttpsUrl spellingCrates url = .ok () :=
    bind_eq_ok.mpr ⟨_, rfl, ensure_eq_ok.mpr (by decide)⟩
  exact validateManifestFields_sample hurls rfl (by decide) rfl ⟨_, rfl⟩ ⟨_, rfl⟩ (by decide)

/-- The document of the sample in two spellings, under its signature. -/
theorem signature_covers_manifest_rulesOnly :
    (canonicalManifestBytes (manifestJson rulesOnlyManifest) =
        canonicalManifestBytes (reorderedJson rulesOnlyManifest) ↔
      SameValue (manifestJson rulesOnlyManifest) (reorderedJson rulesOnlyManifest)) ∧
    (∃ entries, Json.object (unsignedEntries rulesOnlyManifest) = .object entries ∧
      decodeContentManifest (complete entries rulesOnlyManifest.signature) =
        .ok rulesOnlyManifest ∧
      Says entries rulesOnlyManifest) ∧
    (verifyManifest spellingCrates (manifestText rulesOnlyManifest) = .ok rulesOnlyManifest ↔
      verifyManifest spellingCrates (reorderedText rulesOnlyManifest) =
        .ok rulesOnlyManifest) := by
  have hcovers := signature_covers_manifest spellingCrates
  have hdistinct := distinctKeys_manifestJson rulesOnlyManifest
  have hdistinct' : DistinctKeys (reorderedJson rulesOnlyManifest) := by
    rw [reorderedJson_eq]
    exact distinctKeys_reverse hdistinct
  have hbase64 : spellingCrates.base64 rulesOnlyManifest.signature = some rulesOnlySignature := by
    simp only [spellingCrates, sampleCrates, ↓reduceIte]
  refine ⟨?_, ?_, ?_⟩
  · exact hcovers.1 _ _ ⟨hdistinct, noFloat_manifestJson _⟩ ⟨hdistinct', noFloat_reorderedJson _⟩
  · refine hcovers.2.1 _ _ _ _ spelling_verified hbase64 (fun message hmessage => ?_)
      (isDocument_unsigned _)
    simp only [spellingCrates, Bool.and_eq_true, decide_eq_true_eq] at hmessage
    exact hmessage.1
  · refine hcovers.2.2 _ _ _ _ length_rulesOnlyText ?_ parse_manifestText parse_reorderedText
      hdistinct hdistinct' ?_ _
    · rw [length_reorderedText]
      exact length_rulesOnlyText
    · rw [reorderedJson_eq]
      exact sameValue_reverse hdistinct

end OpenGuard.Updates
