/-! Runs whose steps leave something behind: entries, deeds, lines. -/
namespace SeriesClient
variable {S E : Type _}

/-- A run of steps, with all that they left behind in order. -/
inductive Traced (step : S → List E → S → Prop) : S → List E → S → Prop
  | refl (s : S) : Traced step s [] s
  | next {s t u : S} {first rest : List E} (head : step s first t) (tail : Traced step t rest u) :
      Traced step s (first ++ rest) u

namespace Traced
variable {step : S → List E → S → Prop}

theorem single {s t : S} {events : List E} (head : step s events t) : Traced step s events t :=
  List.append_nil events ▸ .next head (.refl t)

theorem trans {s t u : S} {first rest : List E} (before : Traced step s first t)
    (after : Traced step t rest u) : Traced step s (first ++ rest) u := by
  induction before with
  | refl => exact after
  | next head tail ih => exact List.append_assoc .. ▸ .next head (ih after)

/-- What each step keeps, a run keeps. -/
theorem keeps {P : S → Prop} (kept : ∀ {s t events}, step s events t → P s → P t) {s t : S}
    {events : List E} (run : Traced step s events t) (holds : P s) : P t := by
  induction run with
  | refl => exact holds
  | next head tail ih => exact ih (kept head holds)

end Traced
end SeriesClient
