/-!
# Ordering strategies

The two ways of computing the compiled order, which is the same for both.
-/

namespace ErrorTaxonomy

inductive OrderingStrategy where
  | queue
  | multiPass
  deriving DecidableEq

namespace OrderingStrategy

def name : OrderingStrategy → String
  | queue => "queue"
  | multiPass => "multi-pass"

def ofName? (name : String) : Option OrderingStrategy :=
  if name = "queue" then some queue
  else if name = "multi-pass" then some multiPass
  else none

def title : OrderingStrategy → String
  | queue => "Queue"
  | multiPass => "MultiPass"

end OrderingStrategy

end ErrorTaxonomy
