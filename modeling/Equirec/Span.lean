/-!
# Places in a source

Places are counted in bytes of the source's UTF-8 form and kept in 32 bits, so that a place past
the first 2³² bytes wraps round.
-/
namespace Equirec

/-- A place in a source: the number of bytes before it, modulo 2³². -/
abbrev Offset := UInt32

/-- A place in a labelled source. -/
structure Position where
  /-- The place. -/
  offset : Offset
  /-- The label of the source, usually a file name. -/
  file : String
  deriving DecidableEq

/-- A stretch of a source. -/
structure Span where
  /-- The place of its first byte. -/
  start : Offset
  /-- The place just after its last byte. -/
  stop : Offset
  deriving DecidableEq, Inhabited

/-- The stretch from the start of one to the end of another. -/
def Span.through (first last : Span) : Span :=
  ⟨first.start, last.stop⟩

end Equirec
