import MetricLayer.Error
import MetricLayer.Sql.Expr

/-!
# Functions that formulas may call
-/

namespace MetricLayer.Sql.Function

/-- The function that a formula calls by `name`, in any case. -/
def ofFormulaName? (name : String) : Option Function :=
  match Text.upperAscii name with
  | "ROUND" => some .round
  | "ABS" => some .abs
  | "CEIL" | "CEILING" => some .ceil
  | "FLOOR" => some .floor
  | "COALESCE" => some .coalesce
  | "IFNULL" => some .ifNull
  | "NULLIF" => some .nullIf
  | "GREATEST" => some .greatest
  | "LEAST" => some .least
  | "SQRT" => some .sqrt
  | "POWER" | "POW" => some .power
  | "LN" => some .ln
  | "LOG10" => some .log10
  | "EXP" => some .exp
  | "SIGN" => some .sign
  | "SAFE_DIVIDE" => some .safeDivide
  | _ => none

def arity : Function → Arity
  | .safeDivide | .nullIf | .power | .ifNull => ⟨2, some 2⟩
  | .round => ⟨1, some 2⟩
  | .coalesce | .greatest | .least => ⟨1, none⟩
  | _ => ⟨1, some 1⟩

end MetricLayer.Sql.Function
