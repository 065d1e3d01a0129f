import GrammarArtifact.Path

/-!
# Paths below a directory

A path lies below a directory by its text when the components of the directory are its first
components. A path that is not absolute keeps all components of the directory that it is
joined to, so joining leads below the directory. Joining an absolute path drops the directory,
and then only the path itself decides. What links and double dots on the way lead to is not
looked at.
-/

namespace GrammarArtifact.Path

/-- The components of a path, from left to right. A slash in front is a component, and so is
a single dot in front of a relative path. Elsewhere single dots and further slashes mean
nothing. -/
def components (path : String) : List String :=
  let front :=
    if isAbsolute path then ["/"]
    else if (pieces '/' [] path.toList).head? = some "." then ["."]
    else []
  front ++ (parts '/' path).filter (· ≠ ".")

/-- Whether a path begins with all components of another one. -/
def startsWith (path directory : String) : Bool :=
  (components directory).isPrefixOf (components path)

/-- An ending that does not begin with a slash makes no path absolute. -/
theorem isAbsolute_append (path : String) {ending : String} (plain : isAbsolute ending = false) :
    isAbsolute (path ++ ending) = isAbsolute path := by
  cases spelled : path.toList with
  | nil => simpa [isAbsolute, spelled] using plain
  | cons c rest => simp [isAbsolute, spelled]

/-- The piece being read has no part in where a text is cut. -/
theorem pieces_append (separator : Char) (piece text rest : List Char) :
    pieces separator piece (text ++ separator :: rest) =
      pieces separator piece text ++ pieces separator [] rest := by
  induction text generalizing piece with
  | nil => simp [pieces]
  | cons c text induction =>
    by_cases cut : c = separator
    · simp [pieces, cut, induction]
    · simp [pieces, cut, induction]

/-- There is always a piece, if only an empty one. -/
theorem pieces_ne_nil (separator : Char) (piece text : List Char) :
    pieces separator piece text ≠ [] := by
  induction text generalizing piece with
  | nil => simp [pieces]
  | cons c text induction =>
    rw [pieces]
    split
    · simp
    · exact induction _

/-- The pieces of a path that goes on behind a slash. -/
theorem pieces_append_slash (above rest : String) :
    pieces '/' [] (above ++ "/" ++ rest).toList =
      pieces '/' [] above.toList ++ pieces '/' [] rest.toList := by
  simp [pieces_append]

/-- A slash at the end adds an empty piece. -/
theorem pieces_slash (above : String) :
    pieces '/' [] (above ++ "/").toList = pieces '/' [] above.toList ++ [""] := by
  simpa [pieces] using pieces_append_slash above ""

/-- What follows does not change the first piece. -/
theorem head?_pieces_append (text : List Char) (rest : List String) :
    (pieces '/' [] text ++ rest).head? = (pieces '/' [] text).head? := by
  rw [List.head?_append, Option.or_of_isSome]
  simpa using pieces_ne_nil '/' [] text

/-- What follows a slash adds its names to the components before it. -/
theorem components_append_slash (above rest : String) :
    components (above ++ "/" ++ rest) =
      components (above ++ "/") ++ (parts '/' rest).filter (· ≠ ".") := by
  have rooted : isAbsolute (above ++ "/" ++ rest) = isAbsolute (above ++ "/") := by
    simp [isAbsolute, List.head?_append]
  have names : parts '/' (above ++ "/" ++ rest) = parts '/' (above ++ "/") ++ parts '/' rest := by
    rw [parts, parts, parts, pieces_append_slash, pieces_slash]
    simp
  rw [components, components, rooted, names, pieces_append_slash, pieces_slash,
    head?_pieces_append, head?_pieces_append, List.filter_append, List.append_assoc]

/-- A slash at the end of a path adds no component. -/
theorem components_slash {directory : String} (named : directory ≠ "") :
    components (directory ++ "/") = components directory := by
  have rooted : isAbsolute (directory ++ "/") = isAbsolute directory := by
    obtain ⟨c, later, spelled⟩ := List.exists_cons_of_ne_nil
      (fun none => named (String.toList_eq_nil_iff.mp none))
    simp [isAbsolute, spelled]
  have names : parts '/' (directory ++ "/") = parts '/' directory := by
    rw [parts, parts, pieces_slash]
    simp
  rw [components, components, rooted, names, pieces_slash, head?_pieces_append]

/-- A path that is not absolute is joined below the directory. -/
theorem startsWith_join {path : String} (relative : isAbsolute path = false)
    (directory : String) : startsWith (join directory path) directory = true := by
  rw [startsWith, List.isPrefixOf_iff_prefix, join, if_neg (by simp [relative])]
  by_cases empty : directory = ""
  · subst empty
    exact List.nil_prefix
  by_cases slash : endsWithSlash directory = true
  · obtain ⟨above, spelled⟩ := List.getLast?_eq_some_iff.mp (by simpa [endsWithSlash] using slash)
    obtain rfl : directory = String.ofList above ++ "/" := String.toList_inj.mp (by simp [spelled])
    rw [if_pos (by simp [slash]), components_append_slash]
    exact List.prefix_append _ _
  · rw [if_neg (by simp [empty, slash]), components_append_slash, components_slash empty]
    exact List.prefix_append _ _

/-- A path lies below the directory that it is joined to exactly when it is not absolute or
lies below the directory by itself. -/
theorem startsWith_join_iff (directory path : String) :
    startsWith (join directory path) directory = true ↔
      isAbsolute path = false ∨ startsWith path directory = true := by
  cases absolute : isAbsolute path with
  | false => simpa using startsWith_join absolute directory
  | true => simp [join, absolute]

example : startsWith "grammars/./a.json" "./grammars" = false ∧
    startsWith "grammars/./a.json" "grammars/" = true ∧ startsWith "./a.json" "." = true ∧
    startsWith "/a.json" "" = true := by decide +kernel

end GrammarArtifact.Path
