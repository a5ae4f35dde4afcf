/-!
# What can go wrong

A `Fault` is the cause for which reading, editing or reporting gives up. The causes are kept apart by
what was wrong with the input, not by where it was noticed.
-/

namespace Mender

inductive Fault where
  | unreadable
  /-- a text was to hold an expression and holds something else; or another promise of the caller is
  broken -/
  | unexpected (what : String)
  /-- an edit would build a node that cannot be written down -/
  | malformed (why : String)
  /-- an edit takes out a part that its node cannot do without, or puts a part of the wrong sort -/
  | misfit
  | noSuchPart
  /-- a place in a list is asked for that it does not have -/
  | outOfRange
  /-- nothing is known about a node that an edit has built -/
  | unknownNode
  /-- a name is looked up that is not there -/
  | unknownKey (key : String)
  /-- a value is not one of those allowed -/
  | badValue (why : String)
  /-- a value is refused, for a reason that is not put into words -/
  | refused
  /-- something that is not supported -/
  | unsupported (what : String)
  /-- an import without a module name cannot be made absolute -/
  | general (what : String)
  | noFile
  /-- a file that was to hold a text holds other bytes -/
  | notText
  /-- a requirement is not well formed -/
  | badRequirement
  /-- a document in JSON, TOML or YAML is not well formed -/
  | badDocument (format : String)
  /-- following names leads around in a circle -/
  | endless
  | failedCommand
  deriving DecidableEq, Repr, Inhabited

end Mender
