import Monochrome.Proofs.Conversion.Selecting
import Monochrome.Proofs.Framing
import Monochrome.Proofs.Resources.Replacing

/-!
# What a conversion uses

The operations of a stream name color spaces, patterns, shadings and external objects, each in the
resources of the stream; forms and the cells of patterns are streams in turn.  Below, what a
conversion uses is told along its recursion, for streams nested to any depth: which resource, in the
scope of the moment at which it is read or replaced.  From that alone it is told which objects a
conversion can reach.
-/

namespace Monochrome

/-- A resource that is used by its name, in the scope of that moment. -/
structure Use where
  scope : Scope
  kind : ResourceKind
  name : String

/-- The objects that are reached by the use of a resource. -/
inductive Use.Reaches (use : Use) : ObjectId → Prop
  /-- The resource, at the end of its chain of references. -/
  | resource (entry : Scope.Entry) (target : ObjectId)
      (found : use.scope.lookup? use.kind use.name = .ok (some entry))
      (isTarget : entry.location = some target) : Reaches use target
  /-- The category of the resource. -/
  | category (target : ObjectId) (category : Dictionary)
      (hasCategory : use.scope.HasCategory use.kind (some target) category) : Reaches use target
  /-- The resource dictionary. -/
  | dictionary (owner target : ObjectId) (entries : Dictionary)
      (isIndirect : use.scope.resources = .indirect owner)
      (fetched : use.scope.document.fetchWithId owner = .ok (target, .dictionary entries)) :
      Reaches use target
  /-- The shading behind a shading pattern. -/
  | shading (entries : Dictionary) (shading : Object) (target : ObjectId)
      (isPattern : use.kind = .pattern)
      (read : use.scope.pattern use.name = .ok (.shading entries shading (some target))) :
      Reaches use target

/-- Whose resource is used in the course of a stream. -/
inductive Owner
  /-- The stream's, or that of a form without resources of its own. -/
  | outer
  /-- That of a form or cell with resources of its own. -/
  | inner

/-- Whether a name is among the operands of an operation. -/
def Operation.Names (operation : Operation) (name : String) : Prop :=
  ∃ operand ∈ operation.operands, operand.text? = some name

/-- Whether an operation names no resource. -/
def Operation.namesNothing (operation : Operation) : Bool :=
  match Operator.ofKeyword operation.keyword with
  | .setSpace _ | .setColor _ | .setPatternColor _ | .paintShading | .paintXObject => false
  | _ => true

namespace Walk

/-- The walk that has noted a pattern. -/
def notePattern (walk : Walk) (name : String) : Walk :=
  { walk with patterns := walk.patterns.insert name }

/-- The walk that has noted a shading. -/
def noteShading (walk : Walk) (name : String) : Walk :=
  { walk with shadings := walk.shadings.insert name }

end Walk

namespace Conversion
open Change

/-- What the conversion of a stream uses, and whose it is. -/
abbrev StreamUse :=
  Option ObjectId → Bytes → Scene → Owner → Use → Prop

section Using

variable (convert : StreamConversion) (uses : StreamUse)

/-- Whether a resource is used when a stream is converted, or when a pattern space becomes gray which
an operation of the stream named. -/
def OwnUses (location : Option ObjectId) (content : Bytes) (scene : Scene) (use : Use) : Prop :=
  (∃ owner, uses location content scene owner use) ∨
    ∃ bytes names left, convert location content scene = .ok (bytes, names) left ∧
      Happens convertPatternSpace (fun name settling =>
        use = ⟨settling.scope, .colorSpace, name⟩ ∧
          ∃ moment, uses location content scene .outer ⟨moment, .colorSpace, name⟩)
        names.toList left

/-- Whether a resource is used when a pattern is converted: by a cell that sets its own colors. -/
def PatternUses (pattern : Pattern) (job : Job) (use : Use) : Prop :=
  ∃ cell paintType content own, pattern = .tiling cell paintType ∧
    Pattern.setsColors paintType = true ∧ cell.content job.document = .ok content ∧
    cell.resources? job.document = .ok own ∧
    OwnUses convert uses cell.location content ⟨job, own.getD default⟩ use

/-- The resources that are used when the pattern with a name is converted, unless the stream used it
before. -/
inductive NamedPatternUses (name : String) (walk : Walk) : Owner → Use → Prop
  /-- The pattern is read. -/
  | read (isNew : walk.patterns.contains name = false) :
      NamedPatternUses name walk .outer ⟨walk.scope, .pattern, name⟩
  /-- Its cell is converted. -/
  | cell (pattern : Pattern) (use : Use) (isNew : walk.patterns.contains name = false)
      (isPattern : walk.scope.pattern name = .ok pattern)
      (uses : PatternUses convert uses pattern walk.toJob use) :
      NamedPatternUses name walk .inner use
  /-- It is replaced. -/
  | replaced (pattern gray : Pattern) (after : Walk)
      (isNew : walk.patterns.contains name = false)
      (isPattern : walk.scope.pattern name = .ok pattern)
      (done : Walk.onJob (convertPattern convert pattern) (walk.notePattern name) =
        .ok gray after) :
      NamedPatternUses name walk .outer ⟨after.scope, .pattern, name⟩

/-- The resources that are used when the shading with a name is converted, unless the stream used it
before. -/
inductive NamedShadingUses (name : String) (walk : Walk) : Owner → Use → Prop
  /-- It is replaced. -/
  | replaced (shading gray : Object) (after : Walk)
      (isNew : walk.shadings.contains name = false)
      (isShading : walk.scope.shading name = .ok shading)
      (done : Walk.onJob (Job.onDocument (Shading.toGray shading)) (walk.noteShading name) =
        .ok gray after) :
      NamedShadingUses name walk .outer ⟨after.scope, .shading, name⟩

/-- The resources that are used when a form is converted. -/
inductive FormUses (form : ContentStream) (walk : Walk) : Owner → Use → Prop
  /-- The form has resources of its own. -/
  | own (content : Bytes) (own : Resources) (use : Use)
      (isContent : form.content walk.document = .ok content)
      (areResources : form.resources? walk.document = .ok (some own))
      (uses : OwnUses convert uses form.location content ⟨walk.toJob, own⟩ use) :
      FormUses form walk .inner use
  /-- The form has those of the stream that paints it. -/
  | shared (content : Bytes) (owner : Owner) (use : Use)
      (isContent : form.content walk.document = .ok content)
      (noResources : form.resources? walk.document = .ok none)
      (uses : uses form.location content walk.toScene owner use) : FormUses form walk owner use

/-- The resources that are used when the external object with a name is converted. -/
inductive XObjectUses (name : String) (walk : Walk) : Owner → Use → Prop
  /-- An image is replaced. -/
  | image (image gray : Stream) (after : Walk)
      (isImage : walk.scope.xobject name = .ok (.image image))
      (done : Walk.onJob (convertImage image) walk = .ok (some gray) after) :
      XObjectUses name walk .outer ⟨after.scope, .xobject, name⟩
  /-- A form is converted. -/
  | form (form : ContentStream) (owner : Owner) (use : Use)
      (isForm : walk.scope.xobject name = .ok (.form form))
      (uses : FormUses convert uses form walk owner use) : XObjectUses name walk owner use
  /-- A form is replaced. -/
  | replaced (form gray : ContentStream) (after : Walk)
      (isForm : walk.scope.xobject name = .ok (.form form))
      (done : convertForm convert form walk = .ok gray after) :
      XObjectUses name walk .outer ⟨after.scope, .xobject, name⟩

/-- Whether a resource is used when the external object with a name is converted, unless the stream
used it before. -/
def NamedXObjectUses (name : String) (walk : Walk) (owner : Owner) (use : Use) : Prop :=
  walk.xobjects.contains name = false ∧
    XObjectUses convert uses name (walk.noteXObject name) owner use

/-- Whether a resource is used when the external objects that operands name are converted. -/
def XObjectsUse (operands : List Object) (walk : Walk) (owner : Owner) (use : Use) : Prop :=
  Happens (fun operand => do convertNamedXObject convert (← Operands.nameOf "Do" operand))
    (fun operand walk => ∃ name, Operands.nameOf "Do" operand = .ok name ∧
      NamedXObjectUses convert uses name walk owner use) operands walk

/-- Whether a resource is used when an operation is converted that the graphics state has followed:
the operation names it, or it is used by what the operation paints with. -/
def FollowedUses (operation : Operation) (walk : Walk) (owner : Owner) (use : Use) : Prop :=
  match Operator.ofKeyword operation.keyword with
  | .setSpace _ =>
    owner = .outer ∧ ∃ name, Operands.singleName operation.keyword operation.operands = .ok name ∧
      use = ⟨walk.scope, .colorSpace, name⟩
  | .setColor slot | .setPatternColor slot =>
    ∃ name underlying, (walk.state.ink slot).color = .pattern name underlying ∧
      operation.Names name ∧ NamedPatternUses convert uses name walk owner use
  | .paintShading =>
    ∃ name, Operands.singleName operation.keyword operation.operands = .ok name ∧
      NamedShadingUses name walk owner use
  | .paintXObject => XObjectsUse convert uses operation.operands walk owner use
  | _ => False

/-- Whether a resource is used when an operation is converted. -/
def OperationUses (operation : Operation) (walk : Walk) (owner : Owner) (use : Use) : Prop :=
  ∃ state, walk.state.follow walk.scope operation = .ok state ∧
    FollowedUses convert uses operation { walk with state := state } owner use

end Using

/-- Whether a resource is used when a stream is converted in which streams are nested to less than
the given depth. -/
def StreamUses : Nat → StreamUse
  | 0, _, _, _, _, _ => False
  | depth + 1, location, content, scene, owner, use =>
    ∃ start operations, entering location scene = .ok start ∧
      Content.read content = .ok operations ∧
      Happens (convertOperation (convertStream depth))
        (fun operation walk =>
          OperationUses (convertStream depth) (StreamUses depth) operation walk owner use)
        operations start

/-- Whether a resource is used when content is converted. -/
def ContentUses (content : Bytes) (scene : Scene) (use : Use) : Prop :=
  OwnUses (streamConversion scene.converter)
    (StreamUses (Trail.levels scene.converter.options.maxNestingDepth)) none content scene use

/-- Whether an object is reached when content is converted: it is a resource that a stream names, or
its category or resource dictionary, or the shading behind a shading pattern that a stream names. -/
def ContentReaches (content : Bytes) (scene : Scene) (target : ObjectId) : Prop :=
  ∃ use, ContentUses content scene use ∧ use.Reaches target

/-- Content whose operations name no resource reaches no object. -/
theorem not_contentReaches {content : Bytes} {operations : List Operation} {scene : Scene}
    {target : ObjectId} (read : Content.read content = .ok operations)
    (nothing : ∀ operation ∈ operations, operation.namesNothing = true) :
    ¬ContentReaches content scene target := by
  have unused (depth : Nat) (location : Option ObjectId) (scene : Scene) (owner : Owner)
      (use : Use) : ¬StreamUses depth location content scene owner use := by
    cases depth with
    | zero => exact id
    | succ depth =>
        rintro ⟨start, others, _, again, happens⟩
        obtain rfl := Except.ok.inj (read.symm.trans again)
        obtain ⟨operation, isOperation, walk, state, _, used⟩ := happens.exists_mem
        have namesNothing := nothing operation isOperation
        cases isOperator : Operator.ofKeyword operation.keyword with
        | setSpace | setColor | setPatternColor | paintShading | paintXObject =>
            simp [Operation.namesNothing, isOperator] at namesNothing
        | _ => simp [FollowedUses, isOperator] at used
  rintro ⟨use, ⟨owner, used⟩ | ⟨bytes, names, left, _, happens⟩, _⟩
  · exact unused _ _ _ _ _ used
  · obtain ⟨name, _, settling, _, moment, used⟩ := happens.exists_mem
    exact unused _ _ _ _ _ used

end Conversion
end Monochrome
