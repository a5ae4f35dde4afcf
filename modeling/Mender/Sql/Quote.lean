/-!
# Quotes in queries

A text literal of SQL is enclosed in single quotes. Inside a text literal of Python such a quote may be
written with a backslash in front of it, unless the literal is a raw one. A quote behind a backslash that is
itself behind a backslash is one that SQL sees escaped; it does not count.
-/

namespace Mender.Sql

variable (raw : Bool) (text : List Char)

/-- The quotes that count in a text, from place `i` on; `behind` tells whether a backslash stands in front of
the text. -/
def quoteSpansFrom (raw : Bool) : Nat → Bool → List Char → List (Nat × Nat)
  | _, _, [] => []
  | i, behind, '\'' :: rest =>
    if behind then quoteSpansFrom raw (i + 1) false rest
    else (i, i + 1) :: quoteSpansFrom raw (i + 1) false rest
  | i, behind, '\\' :: '\'' :: rest =>
    if raw || behind then quoteSpansFrom raw (i + 2) false rest
    else (i, i + 2) :: quoteSpansFrom raw (i + 2) false rest
  | i, _, c :: rest => quoteSpansFrom raw (i + 1) (c == '\\') rest

def quoteSpans : List (Nat × Nat) := quoteSpansFrom raw 0 false text

def splitFirst? : Option (List Char × List Char) :=
  (quoteSpans raw text).head?.map fun (i, j) => (text.take i, text.drop j)

def splitLast? : Option (List Char × List Char) :=
  (quoteSpans raw text).getLast?.map fun (i, j) => (text.take i, text.drop j)

end Mender.Sql
