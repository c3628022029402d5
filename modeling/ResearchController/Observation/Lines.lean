import Mathlib.Data.List.DropRight
import ResearchController.Compute.Local.Logs

/-!
# Lines of a log

A line feed ends a line of a log, whatever stands in front of it: it does not continue a sequence of
bytes that has begun, and the text behind it is split as if nothing came before. So the lines of two
parts of a log are its lines, if the first part ends with a line feed (`pieces_append`).

A slice of a log need not start or end there. It consists of the end of a line that began in front
of it, of whole lines, and of the beginning of a line that it does not finish; `Slice.pieces_eq`
sets its lines beside those of the complete log.
-/

namespace ResearchController
open Lib

/-- The lines that a poll makes of the bytes it has read. -/
def pieces (data : List UInt8) : List String :=
  splitLines (decodeReplace data)

lemma pieces_eq (data : List UInt8) :
    pieces data = splitLinesFrom [] (utf8Decode none data) := by
  rw [pieces, splitLines, decodeReplace, String.toList_ofList]

@[simp] lemma pieces_nil : pieces [] = [] := rfl

/-! ## Line feeds -/

/-- A line feed does not continue the sequence that has begun. -/
def Closes (s : Option Utf8Partial) : Prop :=
  ∀ p ∈ s, 0x0A < p.low

lemma closes_none : Closes none := by
  intro p mem
  cases mem

lemma utf8Lead_low {b : UInt8} {n : Nat} {low high : UInt8} (h : utf8Lead b = some (n, low, high)) :
    0x0A < low := by
  unfold utf8Lead at h
  repeat' split at h
  all_goals cases h
  all_goals decide

lemma closes_start (b : UInt8) : Closes (utf8Start b).2 := by
  unfold utf8Start
  split
  · exact closes_none
  · split
    · rename_i n low high lead
      intro p mem
      cases mem
      exact utf8Lead_low lead
    · exact closes_none

lemma closes_step (s : Option Utf8Partial) (b : UInt8) : Closes (utf8Step s b).2 := by
  cases s with
  | none => exact closes_start b
  | some p =>
    rw [utf8Step]
    split
    · split
      · exact closes_none
      · intro q mem
        cases mem
        show (0x0A : UInt8) < 0x80
        decide
    · exact closes_start b

/-- A line feed is decoded as such, after a replacement character if a sequence has begun. -/
lemma utf8Step_newline {s : Option Utf8Partial} (closes : Closes s) :
    ∃ cs, utf8Step s 0x0A = (cs ++ ['\n'], none) := by
  cases s with
  | none => exact ⟨[], rfl⟩
  | some p =>
    have above : ¬ (p.low ≤ 0x0A ∧ 0x0A ≤ p.high) := by
      rintro ⟨below, _⟩
      exact absurd (closes p rfl) (UInt8.not_lt.mpr below)
    refine ⟨[replacement], ?_⟩
    simp only [utf8Step, above, if_false]
    rfl

/-- Decoding starts afresh behind a line feed. -/
lemma utf8Decode_newline (xs : List UInt8) {s : Option Utf8Partial} (closes : Closes s) :
    ∃ cs, ∀ ys, utf8Decode s (xs ++ 0x0A :: ys) = cs ++ '\n' :: utf8Decode none ys := by
  induction xs generalizing s with
  | nil =>
    obtain ⟨cs, step⟩ := utf8Step_newline closes
    refine ⟨cs, fun ys => ?_⟩
    rw [List.nil_append, utf8Decode, step]
    simp only [List.append_assoc, List.singleton_append]
  | cons b xs ih =>
    obtain ⟨cs, decoded⟩ := ih (closes_step s b)
    refine ⟨(utf8Step s b).1 ++ cs, fun ys => ?_⟩
    rw [List.cons_append, utf8Decode]
    simp only [decoded, List.append_assoc]

/-- A character that is no carriage return. -/
lemma splitLinesFrom_cons {c : Char} (other : c.toNat ≠ 0x0D) (begun ds : List Char) :
    splitLinesFrom begun (c :: ds) =
      if isLineBreak c then String.ofList begun :: splitLinesFrom [] ds
      else splitLinesFrom (begun ++ [c]) ds := by
  cases ds with
  | nil =>
    conv_lhs => unfold splitLinesFrom
    rw [if_neg other]
  | cons c' ds => rw [splitLinesFrom, if_neg other]

lemma splitLinesFrom_feed (begun ds : List Char) :
    splitLinesFrom begun ('\n' :: ds) = String.ofList begun :: splitLinesFrom [] ds := by
  rw [splitLinesFrom_cons (by decide), if_pos (by decide)]

/-- A carriage return, alone or with a line feed. -/
lemma splitLinesFrom_carriage {c : Char} (carriage : c.toNat = 0x0D) (begun : List Char)
    (c' : Char) (ds : List Char) :
    splitLinesFrom begun (c :: c' :: ds) =
      String.ofList begun :: splitLinesFrom [] (if c'.toNat = 0x0A then ds else c' :: ds) := by
  rw [splitLinesFrom, if_pos carriage]
  split <;> rfl

/-- Splitting starts afresh behind a line feed. -/
lemma splitLinesFrom_newline (begun cs ds : List Char) :
    splitLinesFrom begun (cs ++ '\n' :: ds) =
      splitLinesFrom begun (cs ++ ['\n']) ++ splitLinesFrom [] ds := by
  match cs with
  | [] =>
    rw [List.nil_append, List.nil_append, splitLinesFrom_feed, splitLinesFrom_feed]
    rfl
  | c :: rest =>
    rw [List.cons_append, List.cons_append]
    by_cases carriage : c.toNat = 0x0D
    · match rest with
      | [] =>
        -- the two characters are one break
        rw [List.nil_append, List.nil_append, splitLinesFrom_carriage carriage,
          splitLinesFrom_carriage carriage]
        rfl
      | c' :: rest' =>
        rw [List.cons_append, List.cons_append, splitLinesFrom_carriage carriage,
          splitLinesFrom_carriage carriage]
        split
        · rw [splitLinesFrom_newline [] rest' ds, List.cons_append]
        · have tail := splitLinesFrom_newline [] (c' :: rest') ds
          rw [List.cons_append, List.cons_append] at tail
          rw [tail, List.cons_append]
    · rw [splitLinesFrom_cons carriage, splitLinesFrom_cons carriage]
      split
      · rw [splitLinesFrom_newline [] rest ds, List.cons_append]
      · exact splitLinesFrom_newline (begun ++ [c]) rest ds
termination_by cs.length

/-- The bytes end with a line feed, if there are any. -/
def Ended (data : List UInt8) : Prop :=
  data = [] ∨ ∃ front, data = front ++ [0x0A]

/-- The lines of two parts of a log. -/
lemma pieces_append {xs : List UInt8} (ended : Ended xs) (ys : List UInt8) :
    pieces (xs ++ ys) = pieces xs ++ pieces ys := by
  rcases ended with rfl | ⟨front, rfl⟩
  · rfl
  · obtain ⟨cs, decoded⟩ := utf8Decode_newline front closes_none
    have alone := decoded []
    rw [List.append_assoc, List.singleton_append, pieces_eq, pieces_eq, pieces_eq, decoded ys,
      alone]
    exact splitLinesFrom_newline [] cs _

/-! ## Slices -/

/-- The bytes up to the first line feed, with it. -/
def firstLine : List UInt8 → List UInt8
  | [] => []
  | b :: rest => if b = 0x0A then [b] else b :: firstLine rest

/-- The bytes behind the first line feed. -/
def otherLines : List UInt8 → List UInt8
  | [] => []
  | b :: rest => if b = 0x0A then rest else otherLines rest

/-- The bytes up to the last line feed, with it. -/
def finished (data : List UInt8) : List UInt8 :=
  data.rdropWhile (· ≠ 0x0A)

/-- The bytes behind the last line feed. -/
def unfinished (data : List UInt8) : List UInt8 :=
  data.rtakeWhile (· ≠ 0x0A)

lemma firstLine_append (data : List UInt8) : firstLine data ++ otherLines data = data := by
  induction data with
  | nil => rfl
  | cons b rest ih =>
    unfold firstLine otherLines
    split
    · rfl
    · rw [List.cons_append, ih]

lemma firstLine_ended (data : List UInt8) :
    otherLines data = [] ∨ ∃ front, firstLine data = front ++ [0x0A] := by
  induction data with
  | nil => exact Or.inl rfl
  | cons b rest ih =>
    unfold firstLine otherLines
    split
    · rename_i feed
      exact Or.inr ⟨[], by rw [feed]; rfl⟩
    · obtain none | ⟨front, e⟩ := ih
      · exact Or.inl none
      · exact Or.inr ⟨b :: front, by rw [e]; rfl⟩

lemma finished_append (data : List UInt8) : finished data ++ unfinished data = data :=
  List.rdropWhile_append_rtakeWhile

lemma finished_ended (data : List UInt8) : Ended (finished data) := by
  by_cases empty : finished data = []
  · exact Or.inl empty
  · right
    have last : (finished data).getLast empty = 0x0A := by
      by_contra other
      exact List.rdropWhile_last_not _ data empty (decide_eq_true other)
    refine ⟨(finished data).dropLast, ?_⟩
    rw [← last, List.dropLast_append_getLast]

/-- A part of a log. -/
structure Slice where
  start : Nat
  stop : Nat

namespace Slice

variable (log : List UInt8) (s : Slice)

/-- The bytes of a slice. -/
def bytes : List UInt8 := (log.take s.stop).drop s.start

/-- The end of a line that began in front of the slice. -/
def tornEnd : List UInt8 :=
  if (log.take s.start).getLast?.all (· = 0x0A) then [] else firstLine (s.bytes log)

/-- What is left of the slice. -/
def fromLine : List UInt8 :=
  if (log.take s.start).getLast?.all (· = 0x0A) then s.bytes log else otherLines (s.bytes log)

/-- The whole lines of the slice. -/
def whole : List UInt8 := finished (s.fromLine log)

/-- The beginning of a line that the slice does not finish. -/
def tornStart : List UInt8 := unfinished (s.fromLine log)

/-- The lines of the log that end behind the slice. -/
def behind : List UInt8 := s.tornStart log ++ log.drop s.stop

lemma bytes_eq : s.bytes log = s.tornEnd log ++ (s.whole log ++ s.tornStart log) := by
  rw [whole, tornStart, finished_append, tornEnd, fromLine]
  split
  · rfl
  · exact (firstLine_append _).symm

/-- The bytes up to the whole lines of the slice end with a line feed, or there are none. -/
lemma ended_front :
    s.fromLine log = [] ∨ Ended (log.take s.start ++ s.tornEnd log) ∧ Ended (s.tornEnd log) := by
  unfold fromLine tornEnd
  split
  · rename_i atLine
    right
    rw [List.append_nil]
    refine ⟨?_, Or.inl rfl⟩
    cases last : (log.take s.start).getLast? with
    | none => exact Or.inl (List.getLast?_eq_none_iff.mp last)
    | some b =>
      rw [last, Option.all_some, decide_eq_true_eq] at atLine
      obtain ⟨front, e⟩ := List.getLast?_eq_some_iff.mp last
      exact Or.inr ⟨front, by rw [e, atLine]⟩
  · obtain none | ⟨front, e⟩ := firstLine_ended (s.bytes log)
    · exact Or.inl none
    · right
      rw [e]
      exact ⟨Or.inr ⟨log.take s.start ++ front, by rw [List.append_assoc]⟩, Or.inr ⟨front, rfl⟩⟩

/-- A slice has the whole lines that it shares with the log, and torn ones around them. -/
lemma pieces_bytes :
    pieces (s.bytes log) =
      pieces (s.tornEnd log) ++ (pieces (s.whole log) ++ pieces (s.tornStart log)) := by
  have lines : pieces (s.whole log ++ s.tornStart log) =
      pieces (s.whole log) ++ pieces (s.tornStart log) := pieces_append (finished_ended _) _
  rw [← lines, bytes_eq]
  rcases ended_front log s with empty | ⟨_, ended⟩
  · have none : s.whole log ++ s.tornStart log = [] := by
      rw [whole, tornStart, finished_append, empty]
    rw [none, List.append_nil, pieces_nil, List.append_nil]
  · exact pieces_append ended _

/-- The whole lines of a slice stand between those in front of them and those that end behind the
    slice. -/
lemma pieces_log (inside : s.start ≤ s.stop) :
    pieces (s.whole log) = [] ∨
      pieces log = pieces (log.take s.start ++ s.tornEnd log) ++
        (pieces (s.whole log) ++ pieces (s.behind log)) := by
  rcases ended_front log s with empty | ⟨ended, _⟩
  · left
    rw [whole, empty]
    rfl
  · right
    have all : log = log.take s.start ++ s.tornEnd log ++ (s.whole log ++ s.behind log) := by
      have front : (log.take s.stop).take s.start = log.take s.start := by
        rw [List.take_take, min_eq_left inside]
      have upTo : log.take s.start ++ s.bytes log = log.take s.stop := by
        rw [← front, bytes, List.take_append_drop]
      have slice := bytes_eq log s
      calc log = log.take s.stop ++ log.drop s.stop := (List.take_append_drop _ _).symm
        _ = log.take s.start ++ s.bytes log ++ log.drop s.stop := by rw [upTo]
        _ = _ := by
          rw [slice, behind]
          simp only [List.append_assoc]
    have lines : pieces (s.whole log ++ s.behind log) =
        pieces (s.whole log) ++ pieces (s.behind log) := pieces_append (finished_ended _) _
    rw [← lines, ← pieces_append ended]
    exact congrArg pieces all

end Slice

end ResearchController
