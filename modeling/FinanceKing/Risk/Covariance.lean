import FinanceKing.Domain.Guards
import FinanceKing.Lib.Dict
import FinanceKing.Lib.Root
import FinanceKing.Lib.SortBy

/-! The risk model: a correlation matrix, a volatility for every symbol and the clusters that move together.
    It is over any ordered field with square roots: the decimals the code computes with, or the exact reals. -/

namespace FinanceKing.Risk

open Lib

/-- The working precision of the matrix arithmetic. -/
def mathPrecision : ℕ := 50

instance : Root Decimal := ⟨decimalRoot mathPrecision⟩

instance : NearRoot Decimal where
  root_pos := fun h => (decimalRoot_near (by decide) h).1
  root_mul_root_le := fun h => (decimalRoot_near (by decide) h).2.1
  le_root_mul_root := fun h => (decimalRoot_near (by decide) h).2.2

section

variable {K : Type} [Field K] [LinearOrder K] [Root K]

/-! ### Cholesky -/

/-- The next entry of a row of the factor, against the row above it that ends at its column. -/
def choleskyEntry (row lowerRow : List K) (entry : K) : K :=
  (entry - (List.zipWith (· * ·) row lowerRow).sum) / lowerRow.getLastD 0

/-- A row of the factor left of its diagonal. -/
def choleskyRow (lower : List (List K)) (entries : List K) : List K :=
  (lower.zip entries).foldl (fun row (lowerRow, entry) => row ++ [choleskyEntry row lowerRow entry]) []

/-- What is left of the diagonal entry once the row's squares are taken from it. -/
def choleskyPivot (lower : List (List K)) (entries : List K) : K :=
  entries.getD lower.length 0 - ((choleskyRow lower entries).map fun entry => entry * entry).sum

/-- One more row of the factor, or none at the first pivot that is not positive. -/
def choleskyStep (lower : List (List K)) (entries : List K) : Option (List (List K)) :=
  if choleskyPivot lower entries ≤ 0 then none
  else some (lower ++ [choleskyRow lower entries ++ [root (choleskyPivot lower entries)]])

/-- Whether a symmetric matrix admits a Cholesky factorisation; only its lower triangle is read. -/
def isPositiveDefinite (rows : List (List K)) : Bool := (rows.foldlM choleskyStep []).isSome

/-! ### The correlation matrix -/

variable (K) in
structure CorrelationMatrixFields where
  symbols : List String
  entries : Dict String (Dict String K)

namespace CorrelationMatrixFields

variable (self : CorrelationMatrixFields K)

omit [Field K] [LinearOrder K] [Root K] in
/-- `self.entries.get(a, empty).get(b)`. -/
def lookup (symbolA symbolB : String) : Option K :=
  (self.entries.get? symbolA).bind fun row => row.get? symbolB

omit [Root K] in
def validateEntry (symbolA symbolB : String) : PyResult Unit :=
  match self.lookup symbolA symbolB with
  | none => raise .domainError ["no correlation between ", symbolA, " and ", symbolB]
  | some entry => do
    raiseIf (1 < |entry|) .domainError
      ["correlation ", symbolA, "/", symbolB, " is outside [-1, 1]"]
    raiseIf (symbolA = symbolB ∧ entry ≠ 1) .domainError
      ["the diagonal entry for ", symbolA, " is not 1"]
    raiseIf (self.lookup symbolB symbolA ≠ some entry) .domainError
      ["correlation matrix is not symmetric: ", symbolA, "/", symbolB, " and ", symbolB, "/", symbolA]

omit [Root K] in
def postInit : PyResult Unit := do
  raiseIf (self.symbols = []) .domainError ["a correlation matrix over no symbols is not a matrix"]
  raiseIf (sortBy id self.symbols ≠ self.symbols) .domainError
    ["symbols must be sorted for reproducibility, got ", .texts self.symbols]
  raiseIf (¬ self.symbols.Nodup) .domainError ["symbols must be unique, got ", .texts self.symbols]
  self.symbols.forM fun symbolA => do
    raiseIf (self.entries.get? symbolA = none) .domainError ["no correlation row for ", symbolA]
    self.symbols.forM fun symbolB => self.validateEntry symbolA symbolB

omit [Root K] in
theorem validateEntry_eq_ok {symbolA symbolB : String} : self.validateEntry symbolA symbolB = .ok () ↔
    ∃ rho, self.lookup symbolA symbolB = some rho ∧ |rho| ≤ 1 ∧ (symbolA = symbolB → rho = 1) ∧
      self.lookup symbolB symbolA = some rho := by
  rw [validateEntry]
  cases hlookup : self.lookup symbolA symbolB with
  | none =>
    refine iff_of_false (fun h => by cases h) ?_
    rintro ⟨_, h, _⟩
    cases h
  | some rho =>
    simp only [bind_eq_ok, raiseIf_eq_ok, not_and, not_not, not_lt, exists_const, Option.some.injEq,
      exists_eq_left']

omit [Root K] in
/-- The matrices that construct: sorted, distinct symbols, and for every pair an entry within the unit
    interval, one on the diagonal and symmetric. -/
theorem postInit_eq_ok : self.postInit = .ok () ↔ self.symbols ≠ [] ∧ sortBy id self.symbols = self.symbols ∧
    self.symbols.Nodup ∧ ∀ symbolA ∈ self.symbols, ∀ symbolB ∈ self.symbols,
      ∃ rho, self.lookup symbolA symbolB = some rho ∧ |rho| ≤ 1 ∧ (symbolA = symbolB → rho = 1) ∧
        self.lookup symbolB symbolA = some rho := by
  simp only [postInit, bind_eq_ok, raiseIf_eq_ok, not_not, exists_const, forM_eq_ok, validateEntry_eq_ok]
  refine and_congr_right fun _ => and_congr_right fun _ => and_congr_right fun _ => ?_
  refine forall₂_congr fun symbolA hsymbol => and_iff_right_of_imp fun hentries hnone => ?_
  obtain ⟨rho, hlookup, _⟩ := hentries symbolA hsymbol
  rw [lookup, hnone] at hlookup
  cases hlookup

end CorrelationMatrixFields

variable (K) in
omit [Root K] in
/-- A symmetric correlation matrix with a unit diagonal, keyed by symbol. -/
structure CorrelationMatrix extends CorrelationMatrixFields K where
  checked : toCorrelationMatrixFields.postInit = .ok ()

namespace CorrelationMatrix

variable (self : CorrelationMatrix K)

omit [Root K] in
/-- The correlation between two symbols of the universe. -/
def entry (symbolA symbolB : String) : K := (self.lookup symbolA symbolB).getD 0

omit [Root K] in
/-- The correlation between two symbols; one outside the universe raises. -/
def between (symbolA symbolB : String) : PyResult K :=
  match self.lookup symbolA symbolB with
  | none => raise .domainError [symbolA, "/", symbolB, " is outside the estimated universe"]
  | some entry => .ok entry

omit [Root K] in
/-- The matrix in the order of its symbols. -/
def rows : List (List K) :=
  self.symbols.map fun symbolA => self.symbols.map fun symbolB => self.entry symbolA symbolB

omit [Root K] in
theorem nodup_symbols : self.symbols.Nodup :=
  (CorrelationMatrixFields.postInit_eq_ok self.toCorrelationMatrixFields).mp self.checked |>.2.2.1

omit [Root K] in
/-- Every pair of the universe has an entry: within the unit interval, one on the diagonal, symmetric. -/
theorem entry_facts {symbolA symbolB : String} (hA : symbolA ∈ self.symbols) (hB : symbolB ∈ self.symbols) :
    self.lookup symbolA symbolB = some (self.entry symbolA symbolB) ∧ |self.entry symbolA symbolB| ≤ 1 ∧
      (symbolA = symbolB → self.entry symbolA symbolB = 1) ∧
      self.entry symbolB symbolA = self.entry symbolA symbolB := by
  obtain ⟨_, _, _, hentries⟩ := (CorrelationMatrixFields.postInit_eq_ok _).mp self.checked
  obtain ⟨rho, hlookup, hbound, hdiagonal, hmirrored⟩ := hentries symbolA hA symbolB hB
  rw [entry, entry, hlookup, hmirrored]
  exact ⟨rfl, hbound, hdiagonal, rfl⟩

omit [Root K] in
theorem entry_self {symbol : String} (h : symbol ∈ self.symbols) : self.entry symbol symbol = 1 :=
  (self.entry_facts h h).2.2.1 rfl

end CorrelationMatrix

/-! ### Clusters and the model -/

structure CorrelationClusterFields where
  clusterId : String
  symbols : List String
  deriving DecidableEq

def CorrelationClusterFields.postInit (self : CorrelationClusterFields) : PyResult Unit := do
  raiseIf (self.symbols = []) .domainError ["an empty cluster cannot exist"]
  raiseIf (sortBy id self.symbols ≠ self.symbols) .domainError
    ["cluster members must be sorted, got ", .texts self.symbols]
  raiseIf (self.symbols.head? ≠ some self.clusterId) .domainError
    ["cluster_id ", self.clusterId, " is not the smallest member ", self.symbols.headD ""]

/-- A set of symbols that move together above the cut level. -/
structure CorrelationCluster extends CorrelationClusterFields where
  checked : toCorrelationClusterFields.postInit = .ok ()
  deriving DecidableEq

/-- A cluster is named after one of its members. -/
theorem CorrelationCluster.clusterId_mem (cluster : CorrelationCluster) : cluster.clusterId ∈ cluster.symbols := by
  have h := cluster.checked
  simp only [CorrelationClusterFields.postInit, bind_eq_ok, raiseIf_eq_ok, not_not] at h
  obtain ⟨_, _, _, _, hhead⟩ := h
  exact List.mem_of_mem_head? hhead

variable (K) in
structure RiskModelFields where
  symbols : List String
  dailyVolatilityRatio : Dict String K
  correlations : CorrelationMatrix K
  shrinkageIntensityRatio : K
  psdRepairRatio : K
  clusters : List CorrelationCluster

namespace RiskModelFields

variable (self : RiskModelFields K)

omit [Root K] in
def requireVolatility (symbol : String) : PyResult Unit :=
  raiseIf ((self.dailyVolatilityRatio.get? symbol).all fun volatility => volatility ≤ 0) .domainError
    ["daily volatility for ", symbol, "; a symbol with no estimated volatility cannot be sized and must " ++
      "not be assumed calm"]

def postInit : PyResult Unit := do
  raiseIf (self.symbols ≠ self.correlations.symbols) .domainError
    ["model symbols ", .texts self.symbols, " disagree with the correlation matrix ",
      .texts self.correlations.symbols]
  self.symbols.forM self.requireVolatility
  raiseIf (sortBy id (self.clusters.flatMap fun cluster => cluster.symbols) ≠ sortBy id self.symbols)
    .domainError ["clusters must partition the universe exactly once"]
  raiseIf (¬ isPositiveDefinite self.correlations.rows) .riskModel
    ["the correlation matrix is not positive definite; sigma_p would be the square root of a negative " ++
      "number and every risk share derived from it would be nonsense rather than an error"]

omit [Root K] in
theorem requireVolatility_eq_ok {symbol : String} : self.requireVolatility symbol = .ok () ↔
    ∃ volatility, self.dailyVolatilityRatio.get? symbol = some volatility ∧ 0 < volatility := by
  rw [requireVolatility, raiseIf_eq_ok]
  cases self.dailyVolatilityRatio.get? symbol with
  | none => simp
  | some volatility => simp

/-- The models that construct: over the matrix's symbols, each with a positive volatility and in one cluster,
    and with a factor. -/
theorem postInit_eq_ok : self.postInit = .ok () ↔ self.symbols = self.correlations.symbols ∧
    (∀ symbol ∈ self.symbols, ∃ volatility, self.dailyVolatilityRatio.get? symbol = some volatility ∧
      0 < volatility) ∧
    sortBy id (self.clusters.flatMap fun cluster => cluster.symbols) = sortBy id self.symbols ∧
    isPositiveDefinite self.correlations.rows = true := by
  simp only [postInit, bind_eq_ok, raiseIf_eq_ok, not_not, Unique.exists_iff, PUnit.default_eq_unit,
    forM_eq_ok, requireVolatility_eq_ok]

end RiskModelFields

variable (K) in
/-- Everything a decision needs to price portfolio risk, at one instant. -/
structure RiskModel extends RiskModelFields K where
  checked : toRiskModelFields.postInit = .ok ()

namespace RiskModel

variable (self : RiskModel K)

/-- The volatility of a symbol of the universe. -/
def volatilityOf (symbol : String) : K := (self.dailyVolatilityRatio.get? symbol).getD 0

/-- The covariance of two symbols of the universe, in daily ratio units squared. -/
def covarianceBetween (symbolA symbolB : String) : K :=
  self.volatilityOf symbolA * self.volatilityOf symbolB * self.correlations.entry symbolA symbolB

theorem symbols_eq : self.symbols = self.correlations.symbols :=
  ((RiskModelFields.postInit_eq_ok _).mp self.checked).1

theorem nodup_symbols : self.symbols.Nodup := self.symbols_eq ▸ self.correlations.nodup_symbols

theorem volatilityOf_pos {symbol : String} (hsymbol : symbol ∈ self.symbols) :
    0 < self.volatilityOf symbol := by
  obtain ⟨volatility, hget, hpos⟩ := ((RiskModelFields.postInit_eq_ok _).mp self.checked).2.1 symbol hsymbol
  rw [volatilityOf, hget]
  exact hpos

/-- The clusters hold every symbol of the universe once. -/
theorem perm_clusters : (self.clusters.flatMap fun cluster => cluster.symbols).Perm self.symbols := by
  have hclustered := ((RiskModelFields.postInit_eq_ok _).mp self.checked).2.2.1
  exact (perm_sortBy id _).symm.trans (hclustered ▸ perm_sortBy id _)

theorem definite : isPositiveDefinite self.correlations.rows = true :=
  ((RiskModelFields.postInit_eq_ok _).mp self.checked).2.2.2

theorem nodup_clusters : (self.clusters.map fun cluster => cluster.clusterId).Nodup := by
  have hnodup := self.perm_clusters.nodup_iff.mpr self.nodup_symbols
  rw [List.nodup_flatMap] at hnodup
  refine List.pairwise_map.mpr (hnodup.2.imp fun {first second} hdisjoint hsame => ?_)
  exact hdisjoint first.clusterId_mem (hsame ▸ second.clusterId_mem)

/-- A symbol's variance is the square of its volatility. -/
theorem covarianceBetween_self {symbol : String} (h : symbol ∈ self.symbols) :
    self.covarianceBetween symbol symbol = self.volatilityOf symbol * self.volatilityOf symbol := by
  rw [covarianceBetween, self.correlations.entry_self (self.symbols_eq ▸ h), mul_one]

end RiskModel

end

end FinanceKing.Risk
