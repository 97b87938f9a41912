import LearningTasks.Library.Fallible
import LearningTasks.Library.Sorting
import LearningTasks.Schemas.Scalars
import Mathlib.Algebra.Order.Field.Rat
import Mathlib.Tactic.Linarith
import Mathlib.Tactic.Positivity
import Mathlib.Data.Finset.Dedup
import Mathlib.Data.Finset.Lattice.Basic
import Mathlib.Data.Finset.Card
import Mathlib.Data.List.Dedup

namespace LearningTasks.Agent.Retrieval

open Library.Fallible Library.Sorting Schemas.Scalars
open Std (TransCmp)
open scoped List

def rrfRankConstant : ℕ := 60

def maxRetrievalCandidates : ℕ := 40

def maxFusedResults : ℕ := 20

inductive RetrievalFusionError
  | limit
  | candidates
  | duplicate
  | distance
  | score
  | inconsistent
  deriving DecidableEq

structure FusedChunkRank where
  chunkId : UUID
  vectorRank : Option ℕ
  lexicalRank : Option ℕ
  fusionScore : ℚ
  deriving DecidableEq

/-- How a set of ids is iterated over: each of its members once, in an order of its own. -/
structure SetOrder where
  iterate : List UUID → List UUID
  members (ids : List UUID) : (iterate ids).Perm ids.dedup

def validateRankedIds (chunkIds : List UUID) : Except RetrievalFusionError Unit :=
  if maxRetrievalCandidates < chunkIds.length then .error .candidates
  else if chunkIds.dedup.length ≠ chunkIds.length then .error .duplicate
  else .ok ()

/-- The rank of an id, from one, among ids without duplicates. -/
def rankOf (chunkIds : List UUID) (chunkId : UUID) : Option ℕ :=
  if chunkId ∈ chunkIds then some (chunkIds.idxOf chunkId + 1) else none

/-- The exact score; the code adds doubles, which may tell equal sums apart in the last bit. -/
def rankScore : Option ℕ → ℚ
  | none => 0
  | some rank => 1 / (rrfRankConstant + rank)

def fusedRank (vectorChunkIds lexicalChunkIds : List UUID) (chunkId : UUID) : FusedChunkRank where
  chunkId := chunkId
  vectorRank := rankOf vectorChunkIds chunkId
  lexicalRank := rankOf lexicalChunkIds chunkId
  fusionScore :=
    rankScore (rankOf vectorChunkIds chunkId) + rankScore (rankOf lexicalChunkIds chunkId)

def byScore (s t : FusedChunkRank) : Ordering :=
  (compare (-s.fusionScore) (-t.fusionScore)).then (compare s.chunkId.value t.chunkId.value)

def fusion (order : SetOrder) (vectorChunkIds lexicalChunkIds : List UUID) : List FusedChunkRank :=
  sortBy byScore ((order.iterate (vectorChunkIds ++ lexicalChunkIds)).map
    (fusedRank vectorChunkIds lexicalChunkIds))

def reciprocalRankFuse (order : SetOrder) (vectorChunkIds lexicalChunkIds : List UUID) (limit : ℤ) :
    Except RetrievalFusionError (List FusedChunkRank) :=
  if ¬ (1 ≤ limit ∧ limit ≤ maxFusedResults) then .error .limit
  else do
    validateRankedIds vectorChunkIds
    validateRankedIds lexicalChunkIds
    return (fusion order vectorChunkIds lexicalChunkIds).take limit.toNat

structure Ranking (chunkIds : List UUID) : Prop where
  nodup : chunkIds.Nodup
  size : chunkIds.length ≤ maxRetrievalCandidates

section

variable {vector lexical : List UUID} {limit : ℤ} {order order' : SetOrder}

def Before (s t : FusedChunkRank) : Prop :=
  t.fusionScore < s.fusionScore ∨
    s.fusionScore = t.fusionScore ∧ s.chunkId.value < t.chunkId.value

instance byScore_transCmp : TransCmp byScore :=
  inferInstanceAs (TransCmp (compareLex (compareOn fun s : FusedChunkRank ↦ -s.fusionScore)
    (compareOn fun s : FusedChunkRank ↦ s.chunkId.value)))

end

end LearningTasks.Agent.Retrieval
