import FtpControl.Text
import FtpControl.Text.Utf8

namespace FtpControl.LineBuffer

def feed : UInt8 := 10

/-- The most bytes that may wait for the end of their line. -/
def maxLine : Nat := 65536

/-- The most bytes taken from a stream at once. -/
def chunkSize : Nat := 4096

structure Chunk where
  bytes : List UInt8
  nonempty : bytes ≠ []
  bounded : bytes.length ≤ chunkSize
  deriving DecidableEq, Repr

/-- The text of a line without the blanks at its end. -/
def text (bytes : List UInt8) : String :=
  String.ofList (trimEnd (Utf8.decode bytes))

/-- The first line, and the bytes behind it. -/
def takeLine? (buffer : List UInt8) : Option (String × List UInt8) :=
  match buffer.dropWhile (· != feed) with
  | [] => none
  | _ :: rest => some (text (buffer.takeWhile (· != feed)), rest)

theorem takeLine?_eq_some {buffer rest : List UInt8} {line : String}
    (h : takeLine? buffer = some (line, rest)) :
    ∃ head, buffer = head ++ feed :: rest ∧ feed ∉ head ∧ line = text head := by
  unfold takeLine? at h
  split at h
  next => simp at h
  next b tail hd =>
    obtain ⟨rfl, rfl⟩ := Prod.mk.inj (Option.some.inj h)
    have hb : b = feed := by
      have hp := List.head?_dropWhile_not (· != feed) buffer
      rw [hd] at hp
      simpa using hp
    have hsplit := List.takeWhile_append_dropWhile (p := (· != feed)) (l := buffer)
    refine ⟨buffer.takeWhile (· != feed), ?_, ?_, rfl⟩
    · rw [hd, hb] at hsplit
      exact hsplit.symm
    · intro hm
      simpa using List.all_eq_true.mp List.all_takeWhile feed hm

def encode (line : String) : List UInt8 :=
  Utf8.encode line.toList ++ [13, feed]

end FtpControl.LineBuffer
