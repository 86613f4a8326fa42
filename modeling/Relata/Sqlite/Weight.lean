/-!
Amounts on a logarithmic scale, in which work and row counts are compared.
-/
namespace Relata.Sqlite

/-- About ten times the binary logarithm of an amount; a product of amounts is a sum of weights. -/
abbrev Weight := Int

namespace Weight

/-- The weights of the eighths above a power of two. -/
def eighths : List Weight := [0, 2, 3, 5, 6, 7, 8, 9]

def ofCount (n : Nat) : Weight :=
  if n < 2 then 0
  else
    let e := n.log2
    10 * e + eighths.getD ((n * 8) >>> e - 8) 0

/-- What the smaller of two amounts adds to the weight of the larger one, by the distance of their
weights: bounds of distances, and what is added up to there. -/
def additions : List (Weight × Weight) :=
  [(1, 10), (3, 9), (5, 8), (8, 7), (11, 6), (14, 5), (18, 4), (24, 3), (31, 2), (49, 1)]

/-- The weight of the sum of two amounts. -/
def sum (a b : Weight) : Weight :=
  let distance := max a b - min a b
  max a b + ((additions.find? fun p => distance ≤ p.1).map Prod.snd).getD 0

/-- The depth of a search tree over an amount of rows. -/
def depth (rows : Weight) : Weight := if rows ≤ 10 then 0 else ofCount rows.toNat - 33

end Weight
end Relata.Sqlite
