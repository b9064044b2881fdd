/-!
# Why an interface text is refused

A text is refused at the first place where no declaration can go on, or, if it can be read to its
end, because a namespace is closed under another name. Offsets and excerpts count code points.
-/

namespace MexGlue

inductive ParseFailure where
  /-- No declaration goes on here. -/
  | grammar (offset : Nat) (excerpt : String)
  /-- The name behind the end of a namespace is not the one it was opened with. -/
  | closing (offset : Nat) (opened closed : String)
  deriving DecidableEq, Repr

namespace ParseFailure

def offset : ParseFailure → Nat
  | .grammar offset _ => offset
  | .closing offset _ _ => offset

/-- The text at the offset: some characters of it, or the whole closing name. -/
def excerpt : ParseFailure → String
  | .grammar _ excerpt => excerpt
  | .closing _ _ closed => closed

/-- Why a text that can be read is refused. -/
def reason : ParseFailure → String
  | .grammar _ _ => ""
  | .closing _ opened closed => "namespace '" ++ opened ++ "' closed as '" ++ closed ++ "'"

/-- The failure in words: the offset, the reason if there is one, and the excerpt on a line of its
own if there is one. -/
def message (failure : ParseFailure) : String :=
  "parsing stopped at offset " ++ failure.offset.repr ++
    (if failure.reason = "" then "" else ": " ++ failure.reason) ++
    (if failure.excerpt = "" then "" else "\n" ++ failure.excerpt)

end ParseFailure

end MexGlue
