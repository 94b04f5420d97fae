import OpenGuard.Lib.Stream
import Mathlib.Data.List.TakeWhile

/-!
# Lines of a byte stream

A source is read line by line; a line is decoded with its newline, and the first error ends the
reading.

* `given`, `failure`: the bytes up to the first failure or the end, and that failure.
* `readUntil_of_mem`, `readUntil_of_notMem`: what is read up to a byte.
* `GivesLines.lines_eq`: **the lines before the first one that is not UTF-8**, however the stream is cut.
-/

namespace OpenGuard.Lib

/-- What ends the reading of lines. -/
inductive LineError (ε : Type*) where
  | io (error : ε)
  | invalidData
  deriving DecidableEq

namespace Source

variable {ε : Type*}

/-- The bytes that are read before a read fails or gives nothing. -/
def given : Source ε → List UInt8
  | [] => []
  | .interrupted :: rest => given rest
  | .failed _ :: _ => []
  | .chunk bytes :: rest => if bytes = [] then [] else bytes ++ given rest

/-- The error of the read that fails, if none before gives nothing. -/
def failure : Source ε → Option ε
  | [] => none
  | .interrupted :: rest => failure rest
  | .failed error :: _ => some error
  | .chunk bytes :: rest => if bytes = [] then none else failure rest

/-- Reads up to a byte and that byte too, or up to the end. `BufRead::read_until` -/
def readUntil (byte : UInt8) : Source ε → Except ε (List UInt8) × Source ε
  | [] => (.ok [], [])
  | .interrupted :: rest => readUntil byte rest
  | .failed error :: rest => (.error error, rest)
  | .chunk bytes :: rest =>
      if bytes = [] then (.ok [], rest)
      else if byte ∈ bytes then
        let after := (bytes.dropWhile (· ≠ byte)).tail
        (.ok (bytes.takeWhile (· ≠ byte) ++ [byte]),
          if after = [] then rest else .chunk after :: rest)
      else
        let (read, source) := readUntil byte rest
        (read.map (bytes ++ ·), source)

/-- The byte that ends a line. -/
def newline : UInt8 := 10

/-- The text without its newline and a carriage return before that. -/
def stripNewline (text : String) : String :=
  match text.toList.reverse with
  | '\n' :: '\r' :: rest => String.ofList rest.reverse
  | '\n' :: rest => String.ofList rest.reverse
  | _ => text

/-- The next line, or nothing at the end. `BufRead::read_line`, `Lines::next` -/
def nextLine (source : Source ε) : Option (Except (LineError ε) String) × Source ε :=
  match readUntil newline source with
  | (.error error, rest) => (some (.error (.io error)), rest)
  | (.ok bytes, rest) =>
      if bytes = [] then (none, rest)
      else
        match String.fromUTF8? bytes.toByteArray with
        | none => (some (.error .invalidData), rest)
        | some text => (some (.ok (stripNewline text)), rest)

/-- At most so many lines up to the first error, and that error.
`BufRead::lines`, `Iterator::map_while` -/
def linesFrom : ℕ → Source ε → List String × Option (LineError ε)
  | 0, _ => ([], none)
  | fuel + 1, source =>
      match nextLine source with
      | (none, _) => ([], none)
      | (some (.error error), _) => ([], some error)
      | (some (.ok line), rest) =>
          let (lines, stop) := linesFrom fuel rest
          (line :: lines, stop)

/-- The lines up to the first error, and that error; each takes at least one byte. -/
def lines (source : Source ε) : List String × Option (LineError ε) :=
  linesFrom (source.contents.length + 1) source

section readUntil

variable {byte : UInt8} {source : Source ε} {front back : List UInt8}

theorem length_given_le (source : Source ε) : source.given.length ≤ source.contents.length := by
  induction source with
  | nil => rfl
  | cons event rest ih =>
      cases event with
      | interrupted => exact ih
      | failed error => exact Nat.zero_le _
      | chunk bytes =>
          simp only [given, contents]
          split_ifs with hempty
          · exact Nat.zero_le _
          · simpa using ih

theorem takeWhile_ne_append (hfront : byte ∉ front) (back : List UInt8) :
    (front ++ byte :: back).takeWhile (· ≠ byte) = front := by
  rw [List.takeWhile_append_of_pos, List.takeWhile_cons_of_neg (by simp), List.append_nil]
  exact fun c hc => decide_eq_true fun heq => hfront (heq ▸ hc)

theorem dropWhile_ne_append (hfront : byte ∉ front) (back : List UInt8) :
    (front ++ byte :: back).dropWhile (· ≠ byte) = byte :: back := by
  rw [List.dropWhile_append_of_pos, List.dropWhile_cons_of_neg (by simp)]
  exact fun c hc => decide_eq_true fun heq => hfront (heq ▸ hc)

/-- A byte that is given ends what is read. -/
theorem readUntil_of_mem (hgiven : source.given = front ++ byte :: back) (hfront : byte ∉ front) :
    ∃ rest, readUntil byte source = (.ok (front ++ [byte]), rest) ∧ rest.given = back ∧
      rest.failure = source.failure := by
  induction source generalizing front with
  | nil => simp [given] at hgiven
  | cons event rest ih =>
      cases event with
      | interrupted => exact ih hgiven hfront
      | failed error => simp [given] at hgiven
      | chunk bytes =>
          simp only [given] at hgiven
          split_ifs at hgiven with hempty
          · simp at hgiven
          · simp only [readUntil, failure, if_neg hempty]
            by_cases hmem : byte ∈ bytes
            · -- the byte is in the piece at hand, and what follows it there is kept
              obtain ⟨before, after, rfl, hbefore⟩ := List.eq_append_cons_of_mem hmem
              rw [if_pos hmem, takeWhile_ne_append hbefore, dropWhile_ne_append hbefore,
                List.tail_cons]
              rw [List.append_assoc, List.cons_append] at hgiven
              have hsame := congrArg (List.takeWhile (· ≠ byte)) hgiven
              rw [takeWhile_ne_append hbefore, takeWhile_ne_append hfront] at hsame
              subst hsame
              obtain rfl := (List.cons.inj (List.append_cancel_left hgiven)).2
              refine ⟨_, rfl, ?_, ?_⟩
              · split_ifs with hnone
                · rw [hnone, List.nil_append]
                · rw [given, if_neg hnone]
              · split_ifs with hnone
                · rfl
                · rw [failure, if_neg hnone]
            · rw [if_neg hmem]
              obtain ⟨later, rfl, hlater⟩ :
                  ∃ later, front = bytes ++ later ∧ given rest = later ++ byte :: back := by
                rcases List.append_eq_append_iff.mp hgiven with
                  ⟨later, hlater, hrest⟩ | ⟨later, hbytes, hrest⟩
                · exact ⟨later, hlater, hrest⟩
                · cases later with
                  | nil => exact ⟨[], by simpa using hbytes.symm, by simpa using hrest.symm⟩
                  | cons c later =>
                      obtain ⟨rfl, -⟩ := List.cons.inj hrest
                      exact absurd (by simp [hbytes]) hmem
              obtain ⟨source, hread, hback, hfailure⟩ :=
                ih hlater fun h => hfront (List.mem_append_right _ h)
              refine ⟨source, ?_, hback, hfailure⟩
              rw [hread]
              simp [Except.map]

/-- Without the byte everything is read, unless a read fails. -/
theorem readUntil_of_notMem (hgiven : byte ∉ source.given) :
    (readUntil byte source).1 = source.failure.elim (.ok source.given) Except.error := by
  induction source with
  | nil => rfl
  | cons event rest ih =>
      cases event with
      | interrupted => exact ih hgiven
      | failed error => rfl
      | chunk bytes =>
          simp only [given, readUntil, failure] at hgiven ⊢
          by_cases hempty : bytes = []
          · simp [hempty]
          · simp only [if_neg hempty, List.mem_append, not_or] at hgiven ⊢
            simp only [if_neg hgiven.1, ih hgiven.2]
            cases failure rest <;> rfl

end readUntil

/-! ## Whole lines -/

/-- The text of a line with its newline, if it is UTF-8. -/
def lineText (body : List UInt8) : Option String :=
  (String.fromUTF8? (body ++ [newline]).toByteArray).map stripNewline

/-- Lines, each with its newline. -/
def terminated (bodies : List (List UInt8)) : List UInt8 :=
  bodies.flatMap fun body => body ++ [newline]

/-- The source gives lines with their newlines; what comes after the last newline, if anything
does, is cut off by a failure. -/
structure GivesLines (source : Source ε) (bodies : List (List UInt8)) (tail : List UInt8) :
    Prop where
  given : source.given = terminated bodies ++ tail
  single : ∀ body ∈ bodies, newline ∉ body
  unfinished : newline ∉ tail
  ends : tail = [] ∨ source.failure ≠ none

section lines

variable {source : Source ε} {bodies : List (List UInt8)} {tail : List UInt8} {fuel : ℕ}

theorem length_le_length_terminated (bodies : List (List UInt8)) :
    bodies.length ≤ (terminated bodies).length := by
  induction bodies with
  | nil => rfl
  | cons body bodies ih =>
      unfold terminated at ih ⊢
      rw [List.flatMap_cons, List.length_append, List.length_append, List.length_cons,
        List.length_singleton]
      omega

/-- The next one of some lines. -/
theorem nextLine_of_cons {body : List UInt8}
    (hgiven : source.given = terminated (body :: bodies) ++ tail) (hbody : newline ∉ body) :
    ∃ rest, rest.given = terminated bodies ++ tail ∧ rest.failure = source.failure ∧
      nextLine source = (some ((lineText body).elim (.error .invalidData) .ok), rest) := by
  rw [terminated, List.flatMap_cons, List.append_assoc, List.append_assoc,
    List.singleton_append] at hgiven
  obtain ⟨rest, hread, hrest, hfailure⟩ := readUntil_of_mem hgiven hbody
  refine ⟨rest, hrest, hfailure, ?_⟩
  rw [nextLine, hread]
  simp only [List.append_eq_nil_iff, List.cons_ne_self, and_false, if_false, lineText]
  cases String.fromUTF8? (body ++ [newline]).toByteArray <;> rfl

/-- What comes after the last newline. -/
theorem nextLine_of_tail (hgiven : source.given = tail) (htail : newline ∉ tail)
    (hend : tail = [] ∨ source.failure ≠ none) :
    (nextLine source).1 = source.failure.map fun error => .error (.io error) := by
  have hread : (readUntil newline source).1 = _ := readUntil_of_notMem (hgiven ▸ htail)
  rcases hboth : readUntil newline source with ⟨read, rest⟩
  rw [hboth] at hread
  subst hread
  rw [nextLine, hboth]
  cases hfailure : source.failure with
  | some error => rfl
  | none =>
      have hnone : source.given = [] := hgiven.trans (hend.resolve_right fun h => h hfailure)
      simp [hnone]

/-- The lines before the first one that is not UTF-8 are read, and the reading ends there, at a
failure or at the end. -/
theorem linesFrom_eq (hgiven : source.given = terminated bodies ++ tail)
    (hbodies : ∀ body ∈ bodies, newline ∉ body) (htail : newline ∉ tail)
    (hend : tail = [] ∨ source.failure ≠ none) (hfuel : bodies.length < fuel) :
    linesFrom fuel source =
      ((bodies.takeWhile fun body => (lineText body).isSome).filterMap lineText,
        if ∀ body ∈ bodies, (lineText body).isSome then source.failure.map .io
        else some .invalidData) := by
  induction bodies generalizing source fuel with
  | nil =>
      obtain ⟨fuel, rfl⟩ := Nat.exists_eq_add_one.mpr (Nat.zero_lt_of_lt hfuel)
      have hnext := nextLine_of_tail hgiven htail hend
      rcases hboth : nextLine source with ⟨answer, rest⟩
      rw [hboth] at hnext
      subst hnext
      rw [linesFrom, hboth]
      cases source.failure <;> simp
  | cons body bodies ih =>
      obtain ⟨fuel, rfl⟩ := Nat.exists_eq_add_one.mpr (Nat.zero_lt_of_lt hfuel)
      obtain ⟨rest, hrest, hfailure, hnext⟩ :=
        nextLine_of_cons hgiven (hbodies body List.mem_cons_self)
      have hlater := ih hrest (fun other hother => hbodies other (List.mem_cons_of_mem _ hother))
        (hfailure ▸ hend) (Nat.lt_of_succ_lt_succ hfuel)
      rw [linesFrom, hnext]
      cases htext : lineText body with
      | none => simp [htext]
      | some text =>
          simp only [Option.elim, hlater, hfailure]
          simp [htext]

/-- **The lines before the first one that is not UTF-8** are read, however the stream is cut. -/
theorem GivesLines.lines_eq (h : source.GivesLines bodies tail) :
    source.lines =
      ((bodies.takeWhile fun body => (lineText body).isSome).filterMap lineText,
        if ∀ body ∈ bodies, (lineText body).isSome then source.failure.map .io
        else some .invalidData) := by
  refine linesFrom_eq h.given h.single h.unfinished h.ends (Nat.lt_succ_of_le ?_)
  calc bodies.length ≤ (terminated bodies).length := length_le_length_terminated bodies
    _ ≤ source.given.length := by simp [h.given]
    _ ≤ source.contents.length := length_given_le source

end lines

end Source

end OpenGuard.Lib
