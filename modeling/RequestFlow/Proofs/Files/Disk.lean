/-
A file that is made leaves every other file as it was: the way to what can be
found never leads through a place where nothing is. What is appended to a file
that is there comes after what it held.
-/
import RequestFlow.Files.Disk
import RequestFlow.Proofs.Agreement

namespace RequestFlow.Disk

variable {disk : Disk} {new : List String}

theorem isFile_of_read {path : Path} {text : String} (h : disk.read path = .ok text) :
    disk.isFile path = true := by
  unfold read at h
  obtain ⟨entry, hf, h⟩ := exists_of_bind h
  rw [isFile, hf]
  cases entry with
  | folder => cases h
  | file bytes => rfl

/-- What can be found is a folder or a file. -/
theorem find_eq_error {path : Path} (hd : disk.isFolder path = false)
    (hf : disk.isFile path = false) : ∃ fault, disk.find path = .error fault := by
  unfold isFolder at hd
  unfold isFile at hf
  cases h : disk.find path with
  | error fault => exact ⟨fault, rfl⟩
  | ok entry =>
    rw [h] at hd hf
    cases entry with
    | folder => cases hd
    | file bytes => cases hf

/-! ## What is put at a place -/

/-- What is put at a place is there, and everything else is as it was. -/
theorem entry?_put (hne : new ≠ []) (entry : Entry) (place : List String) :
    entry? (disk.put new entry) place = if place = new then some entry else disk.entry? place := by
  have hroot : ¬new.isEmpty = true := mt List.isEmpty_iff.mp hne
  rw [put]
  split
  · next hany =>
    have hmap : ((disk.entries.map fun e => if e.1 == new then (new, entry) else e).find?
        (·.1 == place)).map (·.2) = (disk.entries.find? (·.1 == place)).map fun e =>
          if place = new then entry else e.2 := by
      induction disk.entries with
      | nil => rfl
      | cons e entries ih => by_cases he : e.1 = new <;> by_cases hp : e.1 = place <;> grind
    by_cases hp : place = new
    · obtain ⟨e, he⟩ := Option.isSome_iff_exists.mp
        (List.find?_isSome.mpr (List.any_eq_true.mp hany))
      subst hp
      simp only [hmap, entry?, if_neg hroot, he, Option.map_some, if_true]
    · simp only [hmap, entry?, if_neg hp]
  · next hany =>
    have hnone : disk.entries.find? (·.1 == new) = none := by
      rw [List.find?_eq_none]
      exact List.any_eq_false.mp (Bool.eq_false_iff.mpr hany)
    by_cases hp : place = new
    · simp [hp, entry?, hroot, hnone]
    · have hother : [(new, entry)].find? (·.1 == place) = none := by simpa using Ne.symm hp
      simp only [hother, entry?, List.find?_append, Option.or_none, if_neg hp]

theorem here_put (disk : Disk) (place : List String) (entry : Entry) :
    (disk.put place entry).here = disk.here := by
  unfold put
  split <;> rfl

theorem ne_nil_of_entry? {found : Option Entry} (h : disk.entry? new = found)
    (hf : found ≠ some .folder) : new ≠ [] := by
  rintro rfl
  exact hf h.symm

/-! ## A new place -/

section

variable (hnew : disk.entry? new = none) (entry : Entry)
include hnew

theorem ne_nil_of_new : new ≠ [] := ne_nil_of_entry? hnew nofun

theorem walk_put {place found : List String} {names : List String}
    (h : disk.walk place names = .ok found) : (disk.put new entry).walk place names = .ok found := by
  induction names generalizing place with
  | nil => exact h
  | cons name rest ih =>
    rw [walk] at h ⊢
    cases he : disk.entry? place with
    | none =>
      rw [he] at h
      cases h
    | some there =>
      -- The folder on the way is there, so it is not at the new place.
      have hne : place ≠ new := by
        rintro rfl
        rw [hnew] at he
        cases he
      rw [entry?_put (ne_nil_of_new hnew), if_neg hne, he]
      rw [he] at h
      cases there with
      | file bytes => cases h
      | folder =>
        dsimp only at h ⊢
        split at h
        · next hup => rw [if_pos hup]; exact ih h
        · next hup =>
          rw [if_neg hup]
          split at h
          · cases h
          · next hlen => rw [if_neg hlen]; exact ih h

theorem place_put {path : Path} {found : List String} (h : disk.place path = .ok found) :
    (disk.put new entry).place path = .ok found := by
  unfold place at h ⊢
  rw [here_put]
  split at h
  · cases h
  · next hnul =>
    split at h
    · cases h
    · next hempty =>
      split at h
      · cases h
      · next hlen =>
        rw [if_neg hnul, if_neg hempty, if_neg hlen]
        exact walk_put hnew entry h

theorem find_put {path : Path} {found : Entry} (h : disk.find path = .ok found) :
    (disk.put new entry).find path = .ok found := by
  unfold find at h
  obtain ⟨place, hp, h⟩ := exists_of_bind h
  have hne : place ≠ new := by
    rintro rfl
    rw [hnew] at h
    cases h
  rw [find, place_put hnew entry hp]
  simp only [bind, Except.bind, entry?_put (ne_nil_of_new hnew), if_neg hne]
  exact h

theorem read_put {path : Path} {text : String} (h : disk.read path = .ok text) :
    (disk.put new entry).read path = .ok text := by
  unfold read at h
  obtain ⟨found, hf, h⟩ := exists_of_bind h
  rw [read, find_put hnew entry hf]
  exact h

end

theorem fromUTF8?_toUTF8 (text : String) : String.fromUTF8? text.toUTF8 = some text := by
  have hvalid : text.toUTF8.IsValidUTF8 := text.isValidUTF8
  rw [String.fromUTF8?, dif_pos hvalid]
  rfl

/-- A file holds the text it was made of. -/
theorem read_ofText {path : Path} {text : String} (h : disk.find path = .ok (.ofText text)) :
    disk.read path = .ok text := by
  simp only [read, h, Entry.ofText, bind, Except.bind, fromUTF8?_toUTF8]

/-- **A file that is made** holds what was written to it, and every other file is as it was. -/
theorem append_new {disk' : Disk} {path : Path} {text : String} (hd : disk.isFolder path = false)
    (hf : disk.isFile path = false) (h : disk.append path text = .ok disk') :
    disk'.read path = .ok text ∧
      ∀ {other content}, disk.read other = .ok content → disk'.read other = .ok content := by
  obtain ⟨fault, hfind⟩ := find_eq_error hd hf
  unfold append change at h
  obtain ⟨place, hp, h⟩ := exists_of_bind h
  unfold find at hfind
  rw [hp] at hfind
  simp only [bind, Except.bind] at hfind
  cases he : disk.entry? place with
  | some there =>
    rw [he] at h hfind
    cases there with
    | folder => cases h
    | file bytes =>
      dsimp only at h hfind
      split at h
      · cases h
      · next hend => rw [if_neg hend] at hfind; cases hfind
  | none =>
    rw [he] at h
    dsimp only at h
    split at h
    · split at h
      · cases h
      next hend =>
      cases h
      rw [ByteArray.empty_append]
      refine ⟨?_, fun hr => read_put he _ hr⟩
      have hfound : (disk.put place (.file text.toUTF8)).find path = .ok (.file text.toUTF8) := by
        rw [find, place_put he _ hp]
        simp only [bind, Except.bind, entry?_put (ne_nil_of_new he), if_true]
        rw [if_neg hend]
      exact read_ofText hfound
    · cases h
    · cases h

/-! ## A file that is there -/

/-- No way leads through a file, whatever it holds. -/
theorem walk_put_file {old : ByteArray} (hold : disk.entry? new = some (.file old)) (bytes : ByteArray)
    (place names : List String) :
    (disk.put new (.file bytes)).walk place names = disk.walk place names := by
  have hne : new ≠ [] := ne_nil_of_entry? hold nofun
  induction names generalizing place with
  | nil => rfl
  | cons name rest ih =>
    rw [walk, walk, entry?_put hne]
    by_cases hp : place = new
    · rw [if_pos hp, hp, hold]
    · simp only [if_neg hp, ih]

theorem toUTF8_of_fromUTF8? {bytes : ByteArray} {text : String}
    (h : String.fromUTF8? bytes = some text) : text.toUTF8 = bytes := by
  rw [String.fromUTF8?] at h
  split at h
  · cases h
    rfl
  · cases h

theorem find_eq_file {path : Path} {bytes : ByteArray} (h : disk.find path = .ok (.file bytes)) :
    ∃ place, disk.place path = .ok place ∧ disk.entry? place = some (.file bytes) ∧
      path.endsInFolder = false := by
  unfold find at h
  obtain ⟨place, hp, h⟩ := exists_of_bind h
  refine ⟨place, hp, ?_⟩
  split at h
  · cases h
  · next there he =>
    split at h
    · cases h
    · next hend =>
      cases h
      exact ⟨he, Bool.eq_false_iff.mpr hend⟩
  · cases h

/-- **A file that is there** holds what was appended to it after what it held. -/
theorem read_append {disk' : Disk} {path : Path} {text more : String}
    (hr : disk.read path = .ok text) (h : disk.append path more = .ok disk') :
    disk'.read path = .ok (text ++ more) := by
  unfold read at hr
  obtain ⟨entry, hf, hr⟩ := exists_of_bind hr
  cases entry with
  | folder => cases hr
  | file old =>
    obtain ⟨place, hp, hold, hend⟩ := find_eq_file hf
    have htext : text.toUTF8 = old := by
      dsimp only at hr
      split at hr
      · next found hfound =>
        cases hr
        exact toUTF8_of_fromUTF8? hfound
      · cases hr
    have hmade : disk' = disk.put place (.ofText (text ++ more)) := by
      rw [append, change, hp] at h
      simp only [bind, Except.bind, hold, hend, Bool.false_eq_true, if_false] at h
      rw [← Except.ok.inj h, Entry.ofText, ← htext]
      simp
    have hplace : disk'.place path = .ok place := by
      rw [hmade, Disk.place, here_put, Entry.ofText]
      simp only [walk_put_file hold]
      exact hp
    have hne : place ≠ [] := ne_nil_of_entry? hold nofun
    have hfound : disk'.find path = .ok (.ofText (text ++ more)) := by
      rw [find, hplace]
      simp only [bind, Except.bind, hmade, entry?_put hne, if_true, Entry.ofText, hend,
        Bool.false_eq_true, if_false]
    exact read_ofText hfound
end RequestFlow.Disk
