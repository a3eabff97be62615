import Eastwood.AuthCode
import Eastwood.LocalFiles

/-!
# Usernames and their files

The validator lets every printable character through, a slash as well as a
dot, so that what was meant for the name of a file may be a path.

Two users have files of their own, directly in the data directory, exactly if
what is before the last slash of either name leads back to the directory, and
what is behind it differs (`ownFiles_iff`). For names without a slash, that is
so: they are what the accounts of one machine may be kept by.
-/

open LexicalPath

/-! ## Usernames -/

/-- **A username that is accepted**. -/
def IsUsername (username : String) : Prop := validateUsername username = .ok ()

instance : DecidablePred IsUsername := fun _ => inferInstanceAs (Decidable (_ = _))

/-- Its characters are printable. -/
theorem IsUsername.printable {username : String} (h : IsUsername username) :
    ∀ c ∈ username.toList, 32 ≤ c.toNat ∧ c.toNat ≤ 126 := by
  unfold IsUsername validateUsername at h
  simp only at h
  split at h
  · cases h
  split at h
  · cases h
  split at h
  · cases h
  split at h
  · cases h
  split at h
  · rename_i hall
    intro c hc
    have hprintable := List.all_eq_true.mp hall c hc
    simp only [Bool.and_eq_true, decide_eq_true_eq] at hprintable
    exact hprintable
  · cases h

/-- As a C string it is what it was. -/
theorem IsUsername.cStr_eq {username : String} (h : IsUsername username) :
    cStr username = username.toList := by
  refine List.takeWhile_eq_self_iff.mpr fun c hc => decide_eq_true ?_
  rintro rfl
  exact absurd (h.printable _ hc).1 (by decide)

/-! ## The main result -/

section Files

variable (dataPath : List Char)

/-- **Two users have files of their own**: none of one is a file of the
other, and all are directly in the data directory. -/
structure OwnFiles (u v : String) : Prop where
  different : ∀ f f' : LocalFile,
    normalise (f.path dataPath u) ≠ normalise (f'.path dataPath v)
  inside : ∀ f : LocalFile, IsDirectlyIn (normalise dataPath) (normalise (f.path dataPath u))
    ∧ IsDirectlyIn (normalise dataPath) (normalise (f.path dataPath v))

/-- **A name leads back** to the data directory: what is before its last
slash, if it has one, does. -/
def LeadsBack (username : String) : Prop :=
  walk (normalise dataPath) (parent username.toList) = normalise dataPath

instance (username : String) : Decidable (LeadsBack dataPath username) :=
  inferInstanceAs (Decidable (_ = _))

variable {dataPath} {u v : String}

/-- A name without a slash leads nowhere. -/
theorem leadsBack_of_notMem (h : '/' ∉ u.toList) : LeadsBack dataPath u := by
  rw [LeadsBack, parent_of_notMem h]
  rfl

/-- A file is in the data directory if its name leads back there. -/
theorem isDirectlyIn_iff (hu : IsUsername u) (f : LocalFile) :
    IsDirectlyIn (normalise dataPath) (normalise (f.path dataPath u))
      ↔ LeadsBack dataPath u := by
  rw [f.path_eq, hu.cStr_eq]
  exact isDirectlyIn_splice_iff f.slash_notMem_ending f.length_ending dataPath

/-- The file is then what is behind the last slash. -/
theorem normalise_path (hu : IsUsername u) (hback : LeadsBack dataPath u) (f : LocalFile) :
    normalise (f.path dataPath u) = (baseName u.toList ++ f.ending) :: normalise dataPath := by
  rw [f.path_eq, hu.cStr_eq, normalise_splice f.slash_notMem_ending f.length_ending, hback]

theorem ownFiles_of_leadsBack (hu : IsUsername u) (hv : IsUsername v)
    (hback : LeadsBack dataPath u) (hback' : LeadsBack dataPath v)
    (hbase : baseName u.toList ≠ baseName v.toList) : OwnFiles dataPath u v where
  different f f' heq := by
    rw [normalise_path hu hback, normalise_path hv hback'] at heq
    have hname := (List.cons.inj heq).1
    obtain rfl := LocalFile.eq_of_append_ending hname
    exact hbase (List.append_cancel_right hname)
  inside f := ⟨(isDirectlyIn_iff hu f).mpr hback, (isDirectlyIn_iff hv f).mpr hback'⟩

/-- Names without a slash have files of their own. -/
theorem ownFiles_of_notMem (hu : IsUsername u) (hv : IsUsername v) (hne : u ≠ v)
    (hslash : '/' ∉ u.toList) (hslash' : '/' ∉ v.toList) : OwnFiles dataPath u v := by
  refine ownFiles_of_leadsBack hu hv (leadsBack_of_notMem hslash) (leadsBack_of_notMem hslash')
    fun hbase => hne (String.toList_inj.mp ?_)
  rwa [baseName_of_notMem hslash, baseName_of_notMem hslash'] at hbase

/-- **When two users have files of their own**: both names lead back to the
data directory, and what is behind their last slashes differs. -/
theorem ownFiles_iff (hu : IsUsername u) (hv : IsUsername v) :
    OwnFiles dataPath u v ↔ LeadsBack dataPath u ∧ LeadsBack dataPath v
      ∧ baseName u.toList ≠ baseName v.toList := by
  refine ⟨fun h => ?_, fun ⟨hback, hback', hbase⟩ =>
    ownFiles_of_leadsBack hu hv hback hback' hbase⟩
  have hback := (isDirectlyIn_iff hu .salt).mp (h.inside .salt).1
  have hback' := (isDirectlyIn_iff hv .salt).mp (h.inside .salt).2
  refine ⟨hback, hback', fun hbase => h.different .salt .salt ?_⟩
  rw [normalise_path hu hback, normalise_path hv hback', hbase]

end Files

/-! ## Bob and others -/

/-- Alice and bob have files of their own. -/
theorem ownFiles_iff_alice_bob : OwnFiles "/data".toList "alice" "bob" :=
  (ownFiles_iff (by decide) (by decide)).mpr (by decide)

/-- **Whose files are whose**: `./bob` is another name for bob's files, and
the files of `../bob` are elsewhere. -/
theorem not_ownFiles_bob :
    IsUsername "bob" ∧ IsUsername "./bob" ∧ IsUsername "../bob"
      ∧ (∀ f : LocalFile,
        normalise (f.path "/data".toList "./bob") = normalise (f.path "/data".toList "bob"))
      ∧ ¬ OwnFiles "/data".toList "bob" "./bob"
      ∧ ¬ OwnFiles "/data".toList "bob" "../bob" := by
  have hbob : IsUsername "bob" := by decide
  have hdot : IsUsername "./bob" := by decide
  have hup : IsUsername "../bob" := by decide
  have hsame : ∀ f : LocalFile,
      normalise (f.path "/data".toList "./bob") = normalise (f.path "/data".toList "bob") := by
    intro f
    rw [normalise_path hdot (by decide), normalise_path hbob (by decide)]
    rfl
  refine ⟨hbob, hdot, hup, hsame, fun h => h.different .salt .salt (hsame .salt).symm, fun h => ?_⟩
  exact absurd ((isDirectlyIn_iff hup .salt).mp (h.inside .salt).2) (by decide)
