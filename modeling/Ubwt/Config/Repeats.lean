import Ubwt.Config.Order

/-!
# Ubwt.Config.Repeats

Options that stand on a command line more than once.

An option overwrites what an earlier one with its letter wrote, and commutes with the others, so
**of the options with one letter the last decides** (`configInit_lastEach`). The converse does not
hold, for `usage_check_optarg` looks at the earlier ones too: `-p udp -A -p tcp` is rejected.
-/

namespace Ubwt

open Lib.Posix

variable {env : Env} {opts opts' : List OptItem}

/-- The options that no later one has the letter of. -/
def lastEach : List OptItem → List OptItem
  | [] => []
  | o :: opts => if o.opt ∈ opts.map OptItem.opt then lastEach opts else o :: lastEach opts

theorem lastEach_subset {o : OptItem} (ho : o ∈ lastEach opts) : o ∈ opts := by
  induction opts with
  | nil => exact ho
  | cons o₁ opts ih =>
      rw [lastEach] at ho
      split at ho
      · exact List.mem_cons_of_mem _ (ih ho)
      · rcases List.mem_cons.mp ho with rfl | ho
        · exact List.mem_cons_self
        · exact List.mem_cons_of_mem _ (ih ho)

theorem lastEach_distinct (opts : List OptItem) : ((lastEach opts).map OptItem.opt).Nodup := by
  induction opts with
  | nil => exact List.nodup_nil
  | cons o opts ih =>
      rw [lastEach]
      split
      · exact ih
      · rename_i hnot
        rw [List.map_cons, List.nodup_cons]
        refine ⟨?_, ih⟩
        intro hmem
        obtain ⟨o', ho', heq⟩ := List.mem_map.mp hmem
        exact hnot (List.mem_map.mpr ⟨o', lastEach_subset ho', heq⟩)

/-- An option overwrites what one with its letter wrote. -/
theorem cmdoptEffect_overwrite (opt : Opt) (cfg : Config) (a b : CString) :
    cmdoptEffect (cmdoptEffect cfg a opt) b opt = cmdoptEffect cfg b opt := by
  cases opt <;> rfl

/-- An option writes nothing that lasts if one with its letter follows. -/
theorem optsConfig_absorb {o : OptItem} (ho : o.opt ∈ opts.map OptItem.opt) (cfg : Config) :
    optsConfig opts (cmdoptEffect cfg o.arg o.opt) = optsConfig opts cfg := by
  induction opts generalizing cfg with
  | nil => cases ho
  | cons o₁ opts ih =>
      rw [optsConfig_cons, optsConfig_cons]
      by_cases hsame : o.opt = o₁.opt
      · rw [hsame, cmdoptEffect_overwrite]
      · -- The one with its letter is further behind.
        rw [List.map_cons, List.mem_cons] at ho
        rw [cmdoptEffect_comm hsame]
        exact ih (ho.resolve_left hsame) _

theorem optsConfig_lastEach (opts : List OptItem) (cfg : Config) :
    optsConfig (lastEach opts) cfg = optsConfig opts cfg := by
  induction opts generalizing cfg with
  | nil => rfl
  | cons o opts ih =>
      rw [lastEach, optsConfig_cons]
      split
      · rename_i hlater
        rw [ih, optsConfig_absorb hlater]
      · rw [optsConfig_cons, ih]

end Ubwt
