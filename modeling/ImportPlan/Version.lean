namespace ImportPlan

/-!
# Version

* `version` — the version of the import rules.
-/

/-- The version of the import rules. -/
def version : String := "0.1.0"

end ImportPlan
