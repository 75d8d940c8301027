/-
This file models the pipeline that runs other pipelines one after the other.
-/

import Mathlib.Data.List.Basic

namespace VisionServer.Server.Sequential

/-- A pipeline is the object that `pipeExpander` makes for a type at a position, or a user owns it. -/
inductive BasePipe where
  | made (position : Nat) (type : String)
  | user (id : Nat)
deriving DecidableEq

/-- The object has its base with the name and its two vectors. -/
structure SequentialPipeline where
  name : String
  pipelines : List BasePipe
  heapPtrs : List BasePipe

/-- These are the objects of the types from a position on. -/
def objects : Nat → List String → List BasePipe
  | _, [] => []
  | position, type :: rest => .made position type :: objects (position + 1) rest

/-- The template makes one object for each type and returns their number. -/
def pipeExpander : Nat → List String → List BasePipe → Nat × List BasePipe
  | _, [], pipes => (0, pipes)
  | position, type :: rest, pipes =>
      let (count, pipes) := pipeExpander (position + 1) rest (pipes ++ [.made position type])
      (1 + count, pipes)

/-- A string stream with an initial text writes over it from its first character on. -/
def overwrite (initial text : String) : String :=
  String.ofList (text.toList ++ initial.toList.drop text.length)

/-- This is the name that `Construct` returns for the pipelines that it has made. -/
def constructedName (getName : BasePipe → String) : List BasePipe → String
  | [] => ""
  | first :: rest =>
      overwrite (getName first) (String.join (rest.map fun pipe => ", " ++ getName pipe))

/-- The vector that the function fills is an argument. -/
def Construct (getName : BasePipe → String) (types : List String) (pipes : List BasePipe) :
    String × List BasePipe :=
  let (count, pipes) := pipeExpander 0 types pipes
  if count < 1 then ("void", pipes) else (constructedName getName pipes, pipes)

namespace SequentialPipeline

/-- The argument of the base constructor is evaluated while the members are still raw storage. -/
def initBase (getName : BasePipe → String) (serial : Nat) (types : List String)
    (s : SequentialPipeline) : SequentialPipeline :=
  let (name, pipes) := Construct getName types s.heapPtrs
  { s with
    name := "SequentialPipeline<" ++ name ++ "> " ++ "/Instance" ++ toString serial
    heapPtrs := pipes }

/-- A vector is empty after its own initialisation. -/
def initPipelines (s : SequentialPipeline) : SequentialPipeline := { s with pipelines := [] }

def initHeapPtrs (s : SequentialPipeline) : SequentialPipeline := { s with heapPtrs := [] }

/-- The body of the constructor registers every owned pipeline. -/
def constructorBody (s : SequentialPipeline) : SequentialPipeline :=
  (List.range s.heapPtrs.length).foldl (fun s i =>
    { s with pipelines := s.pipelines ++ (s.heapPtrs[i]?).toList }) s

/-- The base comes first, then the members in the order of their declaration, then the body. -/
def new (getName : BasePipe → String) (serial : Nat) (types : List String)
    (raw : SequentialPipeline) : SequentialPipeline :=
  (((raw.initBase getName serial types).initPipelines).initHeapPtrs).constructorBody

def addPipeline (p : BasePipe) (s : SequentialPipeline) : SequentialPipeline :=
  { s with pipelines := s.pipelines ++ [p] }

/-- These are the overloads for a vector and for an initializer list. -/
def addPipelines (ps : List BasePipe) (s : SequentialPipeline) : SequentialPipeline :=
  { s with pipelines := s.pipelines ++ ps }

/-- The frame goes through the pipelines in turn. The calls are recorded. -/
def process {Frame : Type} (apply : BasePipe → Frame → Frame) (s : SequentialPipeline)
    (frame : Frame) : Frame × List BasePipe :=
  s.pipelines.foldl (fun io pipe => (apply pipe io.1, io.2 ++ [pipe])) (frame, [])

end SequentialPipeline

/-- These are the later calls on an object. -/
inductive Addition where
  | addPipeline (p : BasePipe)
  | addPipelines (ps : List BasePipe)

namespace Addition

def run (s : SequentialPipeline) : Addition → SequentialPipeline
  | .addPipeline p => s.addPipeline p
  | .addPipelines ps => s.addPipelines ps

/-- These are the pipelines that a call adds. -/
def added : Addition → List BasePipe
  | .addPipeline p => [p]
  | .addPipelines ps => ps

end Addition

variable {Frame : Type} (apply : BasePipe → Frame → Frame)

/-- The frame is transformed by these pipelines in order, each applied once. -/
def Composes (pipes : List BasePipe) (s : SequentialPipeline) (frame : Frame) : Prop :=
  s.process apply frame = (pipes.foldl (fun frame pipe => apply pipe frame) frame, pipes)

/-- The recorded calls are the registered pipelines. -/
theorem process_eq (s : SequentialPipeline) (frame : Frame) :
    s.process apply frame =
      (s.pipelines.foldl (fun frame pipe => apply pipe frame) frame, s.pipelines) := by
  have general : ∀ (pipes calls : List BasePipe) (frame : Frame),
      pipes.foldl (fun (io : Frame × List BasePipe) pipe => (apply pipe io.1, io.2 ++ [pipe]))
        (frame, calls) = (pipes.foldl (fun frame pipe => apply pipe frame) frame, calls ++ pipes) := by
    intro pipes
    induction pipes with
    | nil => simp
    | cons pipe rest ih =>
        intro calls frame
        rw [List.foldl_cons, ih, List.foldl_cons, List.append_assoc, List.singleton_append]
  exact general s.pipelines [] frame

/-- Whatever the raw storage holds, the members are empty after the construction. -/
theorem new_members (getName : BasePipe → String) (serial : Nat) (types : List String)
    (raw : SequentialPipeline) :
    (SequentialPipeline.new getName serial types raw).pipelines = [] ∧
      (SequentialPipeline.new getName serial types raw).heapPtrs = [] :=
  ⟨rfl, rfl⟩

/-- A history of calls appends what each of them adds. -/
theorem additions_pipelines (additions : List Addition) (s : SequentialPipeline) :
    (additions.foldl Addition.run s).pipelines = s.pipelines ++ additions.flatMap Addition.added := by
  induction additions generalizing s with
  | nil => simp
  | cons addition rest ih =>
      rw [List.foldl_cons, ih, List.flatMap_cons, ← List.append_assoc]
      cases addition <;> rfl

theorem objects_length (position : Nat) (types : List String) :
    (objects position types).length = types.length := by
  induction types generalizing position with
  | nil => rfl
  | cons type rest ih => rw [objects, List.length_cons, ih, List.length_cons]

/-- The expansion appends the objects of the types. -/
theorem pipeExpander_eq_objects (position : Nat) (types : List String) (pipes : List BasePipe) :
    pipeExpander position types pipes = (types.length, pipes ++ objects position types) := by
  induction types generalizing position pipes with
  | nil => simp [pipeExpander, objects]
  | cons type rest ih =>
      rw [pipeExpander, ih]
      simp [objects, Nat.add_comm]

/-- The frame goes through the template pipelines and the added ones exactly when there are no
template pipelines: the own initialisation of `heap_ptrs` forgets what the base initialiser put there. -/
theorem process_composes_iff (getName : BasePipe → String) (serial : Nat) (types : List String)
    (raw : SequentialPipeline) (additions : List Addition) (frame : Frame) :
    Composes apply (objects 0 types ++ additions.flatMap Addition.added)
        (additions.foldl Addition.run (SequentialPipeline.new getName serial types raw)) frame ↔
      types = [] := by
  unfold Composes
  rw [process_eq, additions_pipelines, (new_members getName serial types raw).1, List.nil_append]
  constructor
  · intro same
    have lengths := congrArg List.length (congrArg Prod.snd same)
    simp only [List.length_append, objects_length] at lengths
    exact List.length_eq_zero_iff.mp (by omega)
  · intro none
    rw [none, objects, List.nil_append]

/-- A pipeline with one template type and no additions leaves the frame as it is. -/
theorem process_skips_template : ¬ Composes (fun _ (frame : Nat) => frame + 1) (objects 0 ["Blur"])
    (SequentialPipeline.new (fun _ => "Blur") 1 ["Blur"] ⟨"", [], []⟩) 0 := by
  intro composes
  exact absurd (congrArg Prod.fst composes) (by decide)

section Names

variable (getName : BasePipe → String)

/-- The table of a pipeline is the subtable of its name. -/
def SequentialPipeline.tableName (s : SequentialPipeline) : String := s.name

/-- The names of the template pipelines are joined in template order. -/
def joined (types : List String) : String := ", ".intercalate ((objects 0 types).map getName)

/-- The joined names are what `Construct` returns, and they name the pipeline and its table. -/
def Joins (types : List String) : Prop :=
  (Construct getName types []).1 = joined getName types ∧
    ∀ serial (raw : SequentialPipeline), raw.heapPtrs = [] →
      (SequentialPipeline.new getName serial types raw).name =
          "SequentialPipeline<" ++ joined getName types ++ "> " ++ "/Instance" ++ toString serial ∧
        (SequentialPipeline.new getName serial types raw).tableName =
          (SequentialPipeline.new getName serial types raw).name

/-- The first name is followed by the others, each behind a comma. -/
theorem intercalate_cons (first : String) (rest : List String) :
    ", ".intercalate (first :: rest) = first ++ String.join (rest.map fun name => ", " ++ name) := by
  induction rest generalizing first with
  | nil => simp
  | cons second rest ih =>
      rw [String.intercalate_cons_cons, ih, List.map_cons, String.join_cons, String.append_assoc,
        String.append_assoc]

/-- The written text is behind the initial one only when one of them is empty. -/
theorem overwrite_eq_append_iff (initial text : String) :
    overwrite initial text = initial ++ text ↔ initial = "" ∨ text = "" := by
  have lists : overwrite initial text = initial ++ text ↔
      text.toList ++ initial.toList.drop text.length = initial.toList ++ text.toList := by
    rw [← String.toList_inj, overwrite, String.toList_ofList, String.toList_append]
  rw [lists, ← String.length_toList]
  constructor
  · intro same
    have lengths := congrArg List.length same
    rw [List.length_append, List.length_drop, List.length_append] at lengths
    rcases Nat.eq_zero_or_pos initial.toList.length with none | some
    · exact Or.inl (String.toList_eq_nil_iff.mp (List.length_eq_zero_iff.mp none))
    · exact Or.inr (String.toList_eq_nil_iff.mp (List.length_eq_zero_iff.mp (by omega)))
  · rintro (rfl | rfl)
    · simp
    · simp

/-- The names of some pipelines behind the first one are not empty together. -/
theorem join_eq_empty_iff (pipes : List BasePipe) :
    String.join (pipes.map fun pipe => ", " ++ getName pipe) = "" ↔ pipes = [] := by
  cases pipes with
  | nil => simp
  | cons pipe rest => simp

theorem construct_eq (first : String) (rest : List String) :
    (Construct getName (first :: rest) []).1 = overwrite (getName (.made 0 first))
      (String.join ((objects 1 rest).map fun pipe => ", " ++ getName pipe)) := by
  rw [Construct, pipeExpander_eq_objects]
  rfl

/-- The stream writes the other names over the first one. -/
theorem constructs_joined_iff (first : String) (rest : List String) :
    (Construct getName (first :: rest) []).1 = joined getName (first :: rest) ↔
      rest = [] ∨ getName (.made 0 first) = "" := by
  have behind : joined getName (first :: rest) = getName (.made 0 first) ++
      String.join ((objects 1 rest).map fun pipe => ", " ++ getName pipe) := by
    rw [joined, objects, List.map_cons, intercalate_cons, List.map_map]
    rfl
  rw [construct_eq, behind, overwrite_eq_append_iff, join_eq_empty_iff, Or.comm,
    ← List.length_eq_zero_iff, objects_length, List.length_eq_zero_iff]

/-- The names are joined if and only if there is one of them or the first one is empty. -/
theorem joins_iff (first : String) (rest : List String) :
    Joins getName (first :: rest) ↔ rest = [] ∨ getName (.made 0 first) = "" := by
  have joins := constructs_joined_iff getName first rest
  constructor
  · exact fun given => joins.mp given.1
  · intro given
    refine ⟨joins.mpr given, fun serial raw empty => ⟨?_, rfl⟩⟩
    change "SequentialPipeline<" ++ (Construct getName (first :: rest) raw.heapPtrs).1 ++ "> " ++
      "/Instance" ++ toString serial = _
    rw [empty, joins.mpr given]

/-- The second name replaces the first one. -/
theorem twoNames_not_joins : ¬ Joins (fun pipe => match pipe with
    | .made _ type => type
    | .user _ => "user") ["Blur", "Edge"] := by
  intro given
  have cases := (constructs_joined_iff _ _ _).mp given.1
  simp at cases

end Names

end VisionServer.Server.Sequential
