import Mathlib.Data.List.AList

namespace MpQuic.Library

open List

variable {κ α β : Type*}

def filterMapValues (f : α → Option β) (table : AList fun _ : κ => α) : AList fun _ : κ => β where
  entries := table.entries.filterMap fun entry => (f entry.2).map fun value => ⟨entry.1, value⟩
  nodupKeys := by
    rw [List.nodupKeys_iff_pairwise, List.pairwise_filterMap]
    refine (List.nodupKeys_iff_pairwise.mp table.nodupKeys).imp ?_
    intro entry other hne kept hkept later hlater
    obtain ⟨-, -, rfl⟩ := Option.map_eq_some_iff.mp hkept
    obtain ⟨-, -, rfl⟩ := Option.map_eq_some_iff.mp hlater
    exact hne

theorem lookup_filterMapValues [DecidableEq κ] (f : α → Option β) (table : AList fun _ : κ => α)
    (key : κ) : (filterMapValues f table).lookup key = (table.lookup key).bind f := by
  refine Option.ext fun value => ?_
  rw [← Option.mem_def, AList.mem_lookup_iff, Option.bind_eq_some_iff]
  constructor
  · intro hmem
    obtain ⟨⟨found, raw⟩, hraw, hkept⟩ := mem_filterMap.mp hmem
    obtain ⟨kept, hf, heq⟩ := Option.map_eq_some_iff.mp hkept
    cases heq
    exact ⟨raw, AList.mem_lookup_iff.mpr hraw, hf⟩
  · rintro ⟨raw, hraw, hf⟩
    exact mem_filterMap.mpr ⟨⟨key, raw⟩, AList.mem_lookup_iff.mp hraw, by rw [hf]; rfl⟩

theorem filterMapValues_filterMapValues {γ : Type*} (f : α → Option β) (g : β → Option γ)
    (table : AList fun _ : κ => α) :
    filterMapValues g (filterMapValues f table) =
      filterMapValues (fun value => (f value).bind g) table := by
  refine AList.ext ?_
  dsimp only [filterMapValues]
  rw [filterMap_filterMap]
  refine filterMap_congr fun entry _ => ?_
  cases f entry.2 <;> rfl

theorem filterMapValues_eq_self {f : α → Option α} {table : AList fun _ : κ => α}
    (hf : ∀ entry ∈ table.entries, f entry.2 = some entry.2) : filterMapValues f table = table := by
  refine AList.ext ?_
  dsimp only [filterMapValues]
  rw [filterMap_congr (g := some) fun entry hmem => by rw [hf entry hmem]; rfl]
  exact filterMap_some

theorem mem_entries_filterMapValues {f : α → Option β} {table : AList fun _ : κ => α}
    {entry : (_ : κ) × β} (hmem : entry ∈ (filterMapValues f table).entries) :
    ∃ value, f value = some entry.2 := by
  obtain ⟨raw, -, hkept⟩ := mem_filterMap.mp hmem
  obtain ⟨kept, hf, rfl⟩ := Option.map_eq_some_iff.mp hkept
  exact ⟨raw.2, hf⟩

end MpQuic.Library
