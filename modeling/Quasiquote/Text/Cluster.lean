import Quasiquote.Text.Cluster.Class

/-!
# Clusters

What a reader takes for one character may be a letter with its marks, a syllable of several letters,
a flag or a joined picture. A text falls into such clusters, from left to right: whether a character
joins the cluster before it depends on the class of the character right before it, and on what that
cluster has begun.
-/

namespace Quasiquote.Cluster

/-- What the characters read so far have begun, that a later character may complete. -/
inductive Begun
  | nothing
  /-- The first half of a flag. -/
  | flag
  /-- A picture, and nothing but extending marks behind it. -/
  | picture
  /-- A picture with a joiner behind it. -/
  | joinedPicture
  /-- A consonant, and nothing but extending marks and joiners behind it. -/
  | consonant
  /-- The same with a linker among the marks. -/
  | conjunct
  deriving DecidableEq, Repr

/-- What has been begun once a character of a class is read. -/
def Begun.after (begun : Begun) : Class → Begun
  | .pictograph => .picture
  | .consonant => .consonant
  | .regional => if begun = .flag then .nothing else .flag
  | .linker =>
    match begun with
    | .consonant | .conjunct => .conjunct
    | .picture => .picture
    | _ => .nothing
  | .extending =>
    match begun with
    | .consonant | .conjunct | .picture => begun
    | _ => .nothing
  | .nonJoiner => if begun = .picture then .picture else .nothing
  | .joiner =>
    match begun with
    | .consonant | .conjunct => begun
    | .picture => .joinedPicture
    | _ => .nothing
  | _ => .nothing

def Class.isAlone : Class → Bool
  | .carriageReturn | .lineFeed | .control => true
  | _ => false

/-- Whether a character joins the cluster before it, by the class of the character right before it,
what has been begun, and its own class. -/
def joins (before : Class) (begun : Begun) (next : Class) : Bool :=
  match before, next with
  | .carriageReturn, .lineFeed => true
  | .leading, .leading | .leading, .vowel => true
  | .leading, .openSyllable | .leading, .closedSyllable => true
  | .openSyllable, .vowel | .openSyllable, .trailing | .vowel, .vowel | .vowel, .trailing => true
  | .closedSyllable, .trailing | .trailing, .trailing => true
  | before, next =>
    if before.isAlone || next.isAlone then false
    else
      match next with
      | .extending | .linker | .nonJoiner | .joiner | .spacing => true
      | .consonant => begun = .conjunct || before = .prepended
      | .pictograph => begun = .joinedPicture || before = .prepended
      | .regional => begun = .flag || before = .prepended
      | _ => before = .prepended

/-- The clusters of a text behind a cluster that has begun, its latest character first. -/
def clustersBehind (cluster : List Char) (before : Class) (begun : Begun) :
    List Char → List (List Char)
  | [] => [cluster.reverse]
  | c :: rest =>
    let next := Class.of c
    if joins before begun next then clustersBehind (c :: cluster) next (begun.after next) rest
    else cluster.reverse :: clustersBehind [c] next (begun.after next) rest

def clusters : List Char → List (List Char)
  | [] => []
  | c :: rest => clustersBehind [c] (Class.of c) (Begun.nothing.after (Class.of c)) rest

end Quasiquote.Cluster
