import PooFlow.Axle.Ranges

namespace PooFlow.Axle

open Foundation List Bool
open Option (mem_def some.inj)
open Prod (snd fst mk.inj)

section

variable {values values' : List String} {name : String}

end

section

variable {aliases aliases' : List (String × String)} {name anchor other : String}

/-- A name is split at its last point, if it has one. -/
theorem split_of_namespace (h : namespaceOf anchor ≠ "") :
    anchor.toList = (namespaceOf anchor).toList ++ '.' :: (baseName anchor).toList := by
  have hsplit := takeWhile_append_dropWhile (p := (· ≠ '.')) (l := anchor.toList.reverse)
  cases hdrop : anchor.toList.reverse.dropWhile (· ≠ '.') with
  | nil => exact absurd (by rw [namespaceOf, hdrop]; rfl) h
  | cons point front =>
    have hpoint : point = '.' := by
      have hhead := List.head?_dropWhile_not (· ≠ '.') anchor.toList.reverse
      rw [hdrop] at hhead
      simpa using hhead
    have hnamespace : (namespaceOf anchor).toList = front.reverse := by
      rw [namespaceOf, hdrop, String.toList_ofList]
      rfl
    rw [hdrop, hpoint] at hsplit
    rw [hnamespace, baseName, String.toList_ofList]
    calc anchor.toList
        = (anchor.toList.reverse.takeWhile (· ≠ '.') ++ '.' :: front).reverse := by
          rw [hsplit, reverse_reverse]
      _ = _ := by simp

/-- What both ways of naming ask of the anchor of a generated instance. -/
structure Anchors (name anchor : String) : Prop where
  dotted : namespaceOf anchor ≠ ""
  generated : startsWith name (namespaceOf anchor ++ ".inst") = true
  based : endsWith (firstPart (removePrefix name (namespaceOf anchor ++ ".")) '.')
    (baseName anchor) = true

theorem length_takeWhile_le {front back : List Char} :
    ((front ++ '.' :: back).takeWhile (· ≠ '.')).length ≤ front.length := by
  induction front with
  | nil => simp
  | cons c front ih =>
    rw [cons_append, takeWhile_cons]
    split
    · exact Nat.succ_le_succ ih
    · exact Nat.zero_le _

/-- The text of a generated instance from the last point of its namespace on, and the base
that ends its next part. -/
theorem Anchors.split (h : Anchors name anchor) : ∃ rest,
    name.toList = (namespaceOf anchor).toList ++ '.' :: 'i' :: rest ∧
      (baseName anchor).toList <:+ ('i' :: rest).takeWhile (· ≠ '.') := by
  obtain ⟨rest, hname⟩ := isPrefixOf_iff_prefix.1 h.generated
  have hname : name.toList = (namespaceOf anchor).toList ++ '.' :: 'i' :: ("nst".toList ++ rest) :=
    by rw [← hname, String.toList_append]; simp
  have hfront : startsWith name (namespaceOf anchor ++ ".") = true := by
    rw [startsWith, isPrefixOf_iff_prefix, hname, String.toList_append]
    exact ⟨'i' :: ("nst".toList ++ rest), by simp⟩
  have hbased := isSuffixOf_iff_suffix.1 h.based
  rw [removePrefix, if_pos hfront, firstPart, String.toList_ofList, String.toList_ofList,
    hname, String.length_append] at hbased
  refine ⟨_, hname, ?_⟩
  simpa [← String.length_toList] using hbased

/-- **Anchors of a name** are told apart by their lengths: the longer namespace leaves no room
for the base of the shorter one. -/
theorem Anchors.eq_of_length (h : Anchors name anchor) (h' : Anchors name other)
    (hlength : anchor.length = other.length) : anchor = other := by
  wlog hle : (namespaceOf anchor).toList.length ≤ (namespaceOf other).toList.length
    generalizing anchor other
  · exact (this h' h hlength.symm (Nat.le_of_not_le hle)).symm
  obtain ⟨rest, hname, hbase⟩ := h.split
  obtain ⟨rest', hname', hbase'⟩ := h'.split
  have hanchor := split_of_namespace h.dotted
  have hother := split_of_namespace h'.dotted
  rw [← String.length_toList, ← String.length_toList, hanchor, hother] at hlength
  have hbegins : (namespaceOf anchor).toList <+: (namespaceOf other).toList :=
    prefix_of_prefix_length_le ⟨_, hname.symm⟩ ⟨_, hname'.symm⟩ hle
  obtain ⟨between, hbetween⟩ := hbegins
  rw [hname', ← hbetween, append_assoc, append_cancel_left_eq] at hname
  cases between with
  | nil =>
    rw [append_nil] at hbetween
    rw [nil_append, List.cons.injEq] at hname
    rw [hname.2] at hbase'
    rw [← hbetween] at hlength hother
    have hbases := (suffix_of_suffix_length_le hbase hbase' (by simp at hlength; omega))
    refine String.toList_inj.1 ?_
    rw [hanchor, hother, hbases.eq_of_length (by simp at hlength; omega)]
  | cons point between =>
    -- the head of the name ends where the longer namespace does
    rw [cons_append, List.cons.injEq] at hname
    rw [← hname.2] at hbase
    have hshort := hbase.length_le.trans length_takeWhile_le
    rw [← hbetween] at hlength
    simp at hlength
    omega

end

section

variable {closure : LeanDeclarationClosure} {aliases : List (String × String)}
  {declarations declared : List LeanDeclaration} {name anchor : String}

end

section

variable {closure : LeanDeclarationClosure} {aliases : List (String × String)}
  {documents : List Document} {name anchor owner : String}

end

section

variable {closure : LeanDeclarationClosure} {aliases : List (String × String)}
  {documents : List Document} {names ordered result : List String} {name : String}
  {dependencies : String → List String} {p : String → Prop}

end

end PooFlow.Axle
