import Mathlib.Data.List.TakeWhile

/-!
# Outages

A source is seen to connect, to be read, and to fail.  An outage is a run of failures, however long,
and lasts until the source is seen again (`outages`).

`reports` is the account a loop keeps with two flags, and `reports_eq` says what it comes to: each
outage is reported once, from its first failure, and its end once.
-/

namespace WireTap

/-- What is seen of a source. -/
inductive Sighting (ε : Type) where
  | connected
  | read
  | failed (e : ε)
  deriving DecidableEq

variable {ε : Type}

def Sighting.isFailure : Sighting ε → Bool
  | failed _ => true
  | _ => false

/-- A run of failures: whether the source had connected before it, the first failure, and the
sighting that ended it, if one has. -/
structure Outage (ε : Type) where
  before : Bool
  cause : ε
  ended : Option (Sighting ε)
  deriving DecidableEq

/-- The outages of a source that is in service, and has connected before or not. -/
def outages (before : Bool) : List (Sighting ε) → List (Outage ε)
  | [] => []
  | .connected :: seen => outages true seen
  | .read :: seen => outages before seen
  | .failed e :: seen =>
    ⟨before, e, (seen.dropWhile Sighting.isFailure).head?⟩ ::
      outages before (seen.dropWhile Sighting.isFailure)
termination_by seen => seen.length
decreasing_by
  all_goals simp only [List.length_cons]
  · omega
  · omega
  · have h := List.length_dropWhile_le (p := Sighting.isFailure) seen
    omega

/-- A line of the account. -/
inductive Report (ε : Type) where
  /-- An outage began; whether the source had connected before. -/
  | lost (before : Bool) (cause : ε)
  /-- It connected; whether it had before. -/
  | connected (before : Bool)
  /-- It was read, without having connected again. -/
  | readAgain
  deriving DecidableEq

/-- The account of a source, kept with two flags: it has connected before, and it is in an outage. -/
def reports : Bool → Bool → List (Sighting ε) → List (Report ε)
  | _, _, [] => []
  | _, false, .connected :: seen => reports true false seen
  | before, true, .connected :: seen => .connected before :: reports true false seen
  | before, false, .read :: seen => reports before false seen
  | before, true, .read :: seen => .readAgain :: reports before false seen
  | before, false, .failed e :: seen => .lost before e :: reports before true seen
  | before, true, .failed _ :: seen => reports before true seen

namespace Outage

/-- How an outage ended is reported. -/
def ending (before : Bool) : Sighting ε → Report ε
  | .connected => .connected before
  | _ => .readAgain

/-- The lines of an outage: one, or two once it is over. -/
def lines (o : Outage ε) : List (Report ε) :=
  .lost o.before o.cause :: (o.ended.map (ending o.before)).toList

end Outage

/-- In an outage, nothing is reported until a sighting ends it. -/
theorem reports_dropWhile (before : Bool) (seen : List (Sighting ε)) :
    reports before true seen =
      (((seen.dropWhile Sighting.isFailure).head?).map (Outage.ending before)).toList ++
        reports before false (seen.dropWhile Sighting.isFailure) := by
  induction seen with
  | nil => rfl
  | cons s seen ih =>
    cases s with
    | connected => rfl
    | read => rfl
    | failed e =>
      rw [reports, ih, List.dropWhile_cons_of_pos rfl]

/-- The account is, outage by outage, its beginning and its end. -/
theorem reports_eq (before : Bool) (seen : List (Sighting ε)) :
    reports before false seen = (outages before seen).flatMap Outage.lines := by
  induction hn : seen.length using Nat.strong_induction_on generalizing before seen with
  | _ n ih =>
  cases seen with
  | nil => simp [reports, outages]
  | cons s seen =>
    rw [List.length_cons] at hn
    cases s with
    | connected =>
      rw [reports, outages]
      exact ih seen.length (by omega) true seen rfl
    | read =>
      rw [reports, outages]
      exact ih seen.length (by omega) before seen rfl
    | failed e =>
      have hlength := List.length_dropWhile_le (p := Sighting.isFailure) seen
      have hrest := ih _ (by omega) before (seen.dropWhile Sighting.isFailure) rfl
      rw [reports, outages, reports_dropWhile, List.flatMap_cons, hrest, Outage.lines,
        List.cons_append]

end WireTap
