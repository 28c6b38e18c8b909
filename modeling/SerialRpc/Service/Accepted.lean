import SerialRpc.Service.Declarations

/-!
# What the generator accepts (serialrpc_objects.cc:225-967)

The generator checks the declarations of a file one after the other (`Lib/Checks.lean`),
and a message or an enum can be used behind its declaration.

- `EchoRoot.Holds`: what has been made of files and their declarations, with all that
  each object says.
- `EchoRoot.Extends`: what there was is still there. `EchoRoot.Reads`: what an operation
  leaves behind.
- `addEnum_ends`, `addMessage_ends`, `addService_ends`, `getFile_ends`: an operation throws
  what the first of its declarations that does not pass says, and else has made them all.
- `generator_accepts_iff`: the generator accepts a file exactly if every declaration passes,
  reports the first that does not, and never aborts.
- `accepted_acyclic`: no message of an accepted file contains itself.
-/

namespace SerialRpc.Objects

open Checks

/-- Lists that go along with each other have the same images. -/
theorem map_eq_map_of_forall₂ {α β γ : Type} {f : α → γ} {g : β → γ} {as : List α} {bs : List β}
    (h : List.Forall₂ (fun a b => f a = g b) as bs) : as.map f = bs.map g := by
  induction h with
  | nil => rfl
  | cons hab _ ih => rw [List.map_cons, List.map_cons, hab, ih]

/-! ## What has been made -/

namespace EchoRoot

/-- A message of a descriptor, among those that there are. -/
def MessageOf (root : EchoRoot) (d : Descriptor) (message : EchoMessage) : Prop :=
  message ∈ root.messages ∧ message.descriptor = d

def ServiceOf (root : EchoRoot) (d : ServiceDescriptor) (service : EchoService) : Prop :=
  service ∈ root.services ∧ service.descriptor = d

/-- A message has the enums and messages in it, and an object for each field, made of what
is found here. -/
structure MadeMessage (root : EchoRoot) (message : EchoMessage) : Prop where
  nestedEnums : message.nestedEnums = message.descriptor.enumTypes.map echoEnum
  nestedMessages :
    List.Forall₂ root.MessageOf message.descriptor.nestedTypes message.nestedMessages
  fields : List.Forall₂ (fun d field => root.generateField d = .ok field)
    message.descriptor.fields message.fields

/-- A method has the messages that are found for its types. -/
structure MadeMethod (root : EchoRoot) (d : MethodDescriptor) (method : EchoMethod) : Prop where
  name : method.name = d.name
  methodId : method.methodId = d.methodId
  parameter : root.methodType d.inputType = .ok method.parameter
  result : root.methodType d.outputType = .ok method.result
  serverStreaming : method.serverStreaming = d.serverStreaming

/-- A service has the bytes of its UUID, and its versions and methods. -/
structure MadeService (root : EchoRoot) (service : EchoService) : Prop where
  uuid : uuidStringToBytes service.descriptor.uuid = some service.uuid
  majorVersion : service.majorVersion = service.descriptor.majorVersion.toInt32
  minorVersion : service.minorVersion = service.descriptor.minorVersion.toInt32
  methods : List.Forall₂ root.MadeMethod service.descriptor.methods service.methods

section Made

-- protobuf's `StripProto`
variable (stripProto : Str → Str)

/-- A file of a name, among those that there are. -/
def FileOf (root : EchoRoot) (d : FileDescriptor) (file : EchoFile) : Prop :=
  file ∈ root.files ∧ file.name = stripProto d.name

/-- A file has what it declares, and the files that it imports. -/
structure MadeFile (root : EchoRoot) (d : FileDescriptor) (file : EchoFile) : Prop where
  name : file.name = stripProto d.name
  enums : file.enums = d.enumTypes.map echoEnum
  messages : List.Forall₂ root.MessageOf d.messageTypes file.messages
  services : List.Forall₂ root.ServiceOf d.services file.services
  dependencies : List.Forall₂ (root.FileOf stripProto)
    (d.dependencies.filter fun dependency => dependency.name ≠ voidFile) file.dependencies

/-- What files and declarations have been made into: an object of each and no others. -/
structure Holds (root : EchoRoot) (files : List FileDescriptor) (ds : List Declaration) :
    Prop where
  files : List.Forall₂ (root.MadeFile stripProto) files root.files
  messages : root.messages.map EchoMessage.descriptor = ds.filterMap Declaration.message?
  enums : root.enums = (ds.filterMap Declaration.enum?).map echoEnum
  services : root.services.map EchoService.descriptor = ds.filterMap Declaration.service?
  madeMessages : ∀ message ∈ root.messages, root.MadeMessage message
  madeServices : ∀ service ∈ root.services, root.MadeService service

end Made

/-- What there was is still there, in front. -/
structure Extends (root root' : EchoRoot) : Prop where
  files : root.files <+: root'.files
  messages : root.messages <+: root'.messages
  enums : root.enums <+: root'.enums
  services : root.services <+: root'.services

variable {root root' root'' : EchoRoot} {files : List FileDescriptor} {before : List Declaration}

namespace Extends

protected theorem refl (root : EchoRoot) : root.Extends root :=
  ⟨List.prefix_refl _, List.prefix_refl _, List.prefix_refl _, List.prefix_refl _⟩

protected theorem trans (h : root.Extends root') (h' : root'.Extends root'') :
    root.Extends root'' :=
  ⟨h.files.trans h'.files, h.messages.trans h'.messages, h.enums.trans h'.enums,
    h.services.trans h'.services⟩

theorem withFile (root : EchoRoot) (file : EchoFile) :
    root.Extends { root with files := root.files ++ [file] } :=
  { EchoRoot.Extends.refl root with files := List.prefix_append _ _ }

theorem withMessage (root : EchoRoot) (message : EchoMessage) :
    root.Extends { root with messages := root.messages ++ [message] } :=
  { EchoRoot.Extends.refl root with messages := List.prefix_append _ _ }

theorem withEnum (root : EchoRoot) (enum_ : EchoEnum) :
    root.Extends { root with enums := root.enums ++ [enum_] } :=
  { EchoRoot.Extends.refl root with enums := List.prefix_append _ _ }

theorem withService (root : EchoRoot) (service : EchoService) :
    root.Extends { root with services := root.services ++ [service] } :=
  { EchoRoot.Extends.refl root with services := List.prefix_append _ _ }

end Extends

/-! ### What is found stays found -/

/-- A message that has been found is still found when there is more. -/
theorem Extends.getMessage (h : root.Extends root') {type : TypeRef} {message : EchoMessage}
    (hmessage : root.getMessage type = .ok message) : root'.getMessage type = .ok message := by
  unfold EchoRoot.getMessage at hmessage ⊢
  split at hmessage
  case h_1 found hfound =>
    rw [h.messages.find?_eq_some hfound]
    exact hmessage
  case h_2 => cases hmessage

theorem Extends.getEnum (h : root.Extends root') {type : TypeRef} {enum_ : EchoEnum}
    (henum : root.getEnum type = .ok enum_) : root'.getEnum type = .ok enum_ := by
  unfold EchoRoot.getEnum at henum ⊢
  split at henum
  case h_1 found hfound =>
    rw [h.enums.find?_eq_some hfound]
    exact henum
  case h_2 => cases henum

/-- What a field is made of stays the same. -/
theorem Extends.fieldOfType (h : root.Extends root') {d : FieldDescriptor} {field : EchoField}
    (hfield : root.fieldOfType d = .ok field) : root'.fieldOfType d = .ok field := by
  unfold EchoRoot.fieldOfType at hfield ⊢
  cases htype : d.type with
  | message type =>
    rw [htype] at hfield
    cases hfound : root.getMessage type with
    | error e => simp [hfound, bind, Except.bind] at hfield
    | ok message =>
      simp only [hfound, h.getMessage hfound] at hfield ⊢
      exact hfield
  | enum type =>
    rw [htype] at hfield
    cases hfound : root.getEnum type with
    | error e => simp [hfound, bind, Except.bind] at hfield
    | ok enum_ =>
      simp only [hfound, h.getEnum hfound] at hfield ⊢
      exact hfield
  | _ =>
    rw [htype] at hfield
    exact hfield

/-- A field that has been made would be made the same later. -/
theorem Extends.generateField (h : root.Extends root') {d : FieldDescriptor} {field : EchoField}
    (hfield : root.generateField d = .ok field) : root'.generateField d = .ok field := by
  unfold EchoRoot.generateField at hfield ⊢
  cases htype : root.fieldOfType d with
  | error e => simp [htype, bind, Except.bind] at hfield
  | ok type =>
    rw [htype] at hfield
    rw [h.fieldOfType htype]
    exact hfield

theorem Extends.methodType (h : root.Extends root') {type : TypeRef} {message : Option EchoMessage}
    (hmessage : root.methodType type = .ok message) : root'.methodType type = .ok message := by
  unfold EchoRoot.methodType at hmessage ⊢
  split at hmessage
  case isFalse hvoid =>
    rw [if_neg hvoid]
    exact hmessage
  case isTrue hvoid =>
    rw [if_pos hvoid]
    cases hfound : root.getMessage type with
    | error e => simp [hfound, bind, Except.bind] at hmessage
    | ok found =>
      rw [hfound] at hmessage
      rw [h.getMessage hfound]
      exact hmessage

theorem MessageOf.mono (h : root.Extends root') {d : Descriptor} {message : EchoMessage}
    (hmessage : root.MessageOf d message) : root'.MessageOf d message :=
  ⟨h.messages.subset hmessage.1, hmessage.2⟩

theorem ServiceOf.mono (h : root.Extends root') {d : ServiceDescriptor} {service : EchoService}
    (hservice : root.ServiceOf d service) : root'.ServiceOf d service :=
  ⟨h.services.subset hservice.1, hservice.2⟩

theorem MadeMessage.mono (h : root.Extends root') {message : EchoMessage}
    (hmessage : root.MadeMessage message) : root'.MadeMessage message where
  nestedEnums := hmessage.nestedEnums
  nestedMessages := hmessage.nestedMessages.imp fun _ _ => MessageOf.mono h
  fields := hmessage.fields.imp fun _ _ => h.generateField

theorem MadeMethod.mono (h : root.Extends root') {d : MethodDescriptor} {method : EchoMethod}
    (hmethod : root.MadeMethod d method) : root'.MadeMethod d method :=
  { hmethod with
    parameter := h.methodType hmethod.parameter
    result := h.methodType hmethod.result }

theorem MadeService.mono (h : root.Extends root') {service : EchoService}
    (hservice : root.MadeService service) : root'.MadeService service :=
  { hservice with methods := hservice.methods.imp fun _ _ => MadeMethod.mono h }

section Mono

variable {stripProto : Str → Str}

theorem FileOf.mono (h : root.Extends root') {d : FileDescriptor} {file : EchoFile}
    (hfile : root.FileOf stripProto d file) : root'.FileOf stripProto d file :=
  ⟨h.files.subset hfile.1, hfile.2⟩

theorem MadeFile.mono (h : root.Extends root') {d : FileDescriptor} {file : EchoFile}
    (hfile : root.MadeFile stripProto d file) : root'.MadeFile stripProto d file where
  name := hfile.name
  enums := hfile.enums
  messages := hfile.messages.imp fun _ _ => MessageOf.mono h
  services := hfile.services.imp fun _ _ => ServiceOf.mono h
  dependencies := hfile.dependencies.imp fun _ _ => FileOf.mono h

/-- What an operation leaves behind: what there was, the objects of more files and
declarations, and what it returns. -/
structure Reads (stripProto : Str → Str) (root root' : EchoRoot) (files : List FileDescriptor)
    (ds : List Declaration) (made : Prop) : Prop where
  grows : root.Extends root'
  holds : root'.Holds stripProto files ds
  made : made

/-- What was there before an operation is there behind the next. -/
theorem Reads.after {ds : List Declaration} {made made' : Prop} (h : root.Extends root')
    (h' : Reads stripProto root' root'' files ds made) (hmade : made → made') :
    Reads stripProto root root'' files ds made' :=
  ⟨h.trans h'.grows, h'.holds, hmade h'.made⟩

/-! ### What is not found -/

/-- The enums are those of the declarations. -/
theorem Holds.enumDescriptors (h : root.Holds stripProto files before) :
    root.enums.map EchoEnum.descriptor = before.filterMap Declaration.enum? := by
  rw [h.enums, List.map_map]
  exact List.map_id _

/-- The files are known by the names that `StripProto` leaves. -/
theorem Holds.fileNames (h : root.Holds stripProto files before) :
    root.files.map EchoFile.name = files.map fun g => stripProto g.name :=
  (map_eq_map_of_forall₂ (h.files.imp fun _ _ hfile => hfile.name.symm)).symm

/-- A message is found exactly if it is declared, and else the text says which is missing. -/
theorem Holds.getMessage (h : root.Holds stripProto files before) (type : TypeRef) :
    Ends (root.getMessage type) (fun _ => True) (type.messageFailure before) := by
  unfold EchoRoot.getMessage TypeRef.messageFailure
  have hany : ((root.messages.map EchoMessage.descriptor).any fun d => d.address = type.address) =
      (root.messages.find? fun message => message.descriptor.address = type.address).isSome := by
    rw [List.any_map, List.isSome_find?]
    rfl
  rw [← h.messages, hany]
  cases root.messages.find? fun message => message.descriptor.address = type.address with
  | none => rfl
  | some message => exact .ok trivial

theorem Holds.getEnum (h : root.Holds stripProto files before) (type : TypeRef) :
    Ends (root.getEnum type) (fun _ => True) (type.enumFailure before) := by
  unfold EchoRoot.getEnum TypeRef.enumFailure
  have hany : ((root.enums.map EchoEnum.descriptor).any fun d => d.address = type.address) =
      (root.enums.find? fun enum_ => enum_.descriptor.address = type.address).isSome := by
    rw [List.any_map, List.isSome_find?]
    rfl
  rw [← h.enumDescriptors, hany]
  cases root.enums.find? fun enum_ => enum_.descriptor.address = type.address with
  | none => rfl
  | some enum_ => exact .ok trivial

/-- The switch calls the constructors of strings and bytes only with sizes that they take. -/
theorem Holds.fieldOfType (h : root.Holds stripProto files before) (d : FieldDescriptor) :
    Ends (root.fieldOfType d) (fun _ => True) (d.failure before) := by
  unfold EchoRoot.fieldOfType FieldDescriptor.failure
  cases htype : d.type with
  | message type => exact (h.getMessage type).andThen fun message _ => ⟨_, rfl, trivial⟩
  | enum type => exact (h.getEnum type).andThen fun enum_ _ => ⟨_, rfl, trivial⟩
  | group | sint32 | sint64 => rfl
  | string =>
    by_cases hsize : d.stringSize = 0
    · simp only [hsize, ne_eq, not_true_eq_false, if_false]
      exact .ok trivial
    · simp only [hsize, ne_eq, not_false_eq_true, if_true, echoFieldString, if_false]
      exact .ok trivial
  | bytes =>
    by_cases hsize : d.bytesSize = 0
    · simp only [hsize, ne_eq, not_true_eq_false, if_false]
      exact .ok trivial
    · simp only [hsize, ne_eq, not_false_eq_true, if_true, echoFieldBytes, if_false]
      exact .ok trivial
  | _ => exact .ok trivial

/-- A repeated field is wrapped as its size allows. -/
theorem Holds.generateField (h : root.Holds stripProto files before) (d : FieldDescriptor) :
    Ends (root.generateField d) (fun _ => True) (d.failure before) := by
  refine (h.fieldOfType d).andThen fun type _ => ?_
  split
  · exact ⟨_, rfl, trivial⟩
  split
  · exact ⟨_, rfl, trivial⟩
  split
  case isTrue hsize => exact ⟨_, if_neg hsize, trivial⟩
  case isFalse => exact ⟨_, rfl, trivial⟩

/-! ### Nothing is added twice -/

/-- An object is of a declaration, which is at another address. -/
theorem any_address_eq_false {Object Descr : Type} {objects : List Object}
    {descriptor : Object → Descr} {pick : Declaration → Option Descr}
    {declare : Descr → Declaration}
    (hobjects : objects.map descriptor = before.filterMap pick)
    (hpick : ∀ d ∈ before.filterMap pick, declare d ∈ before) {address : Nat}
    (hnew : ∀ d ∈ before, d.address ≠ address) :
    (objects.any fun object => (declare (descriptor object)).address = address) = false := by
  rw [List.any_eq_false]
  intro object hobject
  have hmem := List.mem_map_of_mem (f := descriptor) hobject
  rw [hobjects] at hmem
  exact fun heq => hnew _ (hpick _ hmem) (of_decide_eq_true heq)

/-- An enum that has not been declared is not there. -/
theorem Holds.no_enum (h : root.Holds stripProto files before) (address : Nat)
    (hnew : ∀ d ∈ before, d.address ≠ address) :
    (root.enums.any fun enum_ => enum_.descriptor.address = address) = false :=
  any_address_eq_false h.enumDescriptors (fun _ => Declaration.mem_enum?.mp) hnew

theorem Holds.no_message (h : root.Holds stripProto files before) (address : Nat)
    (hnew : ∀ d ∈ before, d.address ≠ address) :
    (root.messages.any fun message => message.descriptor.address = address) = false :=
  any_address_eq_false h.messages (fun _ => Declaration.mem_message?.mp) hnew

theorem Holds.no_service (h : root.Holds stripProto files before) (address : Nat)
    (hnew : ∀ d ∈ before, d.address ≠ address) :
    (root.services.any fun service => service.descriptor.address = address) = false :=
  any_address_eq_false h.services (fun _ => Declaration.mem_service?.mp) hnew

/-- What was made stays as it was when something is added. -/
theorem Holds.filesAfter (h : root.Holds stripProto files before) (hextends : root.Extends root') :
    List.Forall₂ (root'.MadeFile stripProto) files root.files :=
  h.files.imp fun _ _ => MadeFile.mono hextends

theorem Holds.withEnum (h : root.Holds stripProto files before) (d : EnumDescriptor) :
    Holds stripProto { root with enums := root.enums ++ [echoEnum d] } files
      (before ++ [.enum d]) where
  files := h.filesAfter (.withEnum root _)
  messages := by simp [h.messages, Declaration.message?]
  enums := by simp [h.enums, Declaration.enum?]
  services := by simp [h.services, Declaration.service?]
  madeMessages message hmessage := (h.madeMessages message hmessage).mono (.withEnum root _)
  madeServices service hservice := (h.madeServices service hservice).mono (.withEnum root _)

/-- A message is added that is made of what is there. -/
theorem Holds.withMessage (h : root.Holds stripProto files before) {message : EchoMessage}
    (hmade : root.MadeMessage message) :
    Holds stripProto { root with messages := root.messages ++ [message] } files
      (before ++ [.message message.descriptor]) where
  files := h.filesAfter (.withMessage root message)
  messages := by simp [h.messages, Declaration.message?]
  enums := by simp [h.enums, Declaration.enum?]
  services := by simp [h.services, Declaration.service?]
  madeMessages other hother := by
    refine MadeMessage.mono (.withMessage root message) ?_
    rcases List.mem_append.mp hother with hother | hother
    · exact h.madeMessages other hother
    · exact List.mem_singleton.mp hother ▸ hmade
  madeServices service hservice :=
    (h.madeServices service hservice).mono (.withMessage root message)

theorem Holds.withService (h : root.Holds stripProto files before) {service : EchoService}
    (hmade : root.MadeService service) :
    Holds stripProto { root with services := root.services ++ [service] } files
      (before ++ [.service service.descriptor]) where
  files := h.filesAfter (.withService root service)
  messages := by simp [h.messages, Declaration.message?]
  enums := by simp [h.enums, Declaration.enum?]
  services := by simp [h.services, Declaration.service?]
  madeMessages message hmessage :=
    (h.madeMessages message hmessage).mono (.withService root service)
  madeServices other hother := by
    refine MadeService.mono (.withService root service) ?_
    rcases List.mem_append.mp hother with hother | hother
    · exact h.madeServices other hother
    · exact List.mem_singleton.mp hother ▸ hmade

theorem Holds.withFile (h : root.Holds stripProto files before) {d : FileDescriptor}
    {file : EchoFile} (hmade : root.MadeFile stripProto d file) :
    Holds stripProto { root with files := root.files ++ [file] } (files ++ [d]) before where
  files := by
    refine List.rel_append (h.filesAfter (.withFile root file)) (.cons ?_ .nil)
    exact hmade.mono (.withFile root file)
  messages := h.messages
  enums := h.enums
  services := h.services
  madeMessages message hmessage := (h.madeMessages message hmessage).mono (.withFile root file)
  madeServices service hservice := (h.madeServices service hservice).mono (.withFile root file)

end Mono

end EchoRoot

/-! ## What is added for declarations -/

section Add

open EchoRoot

variable {stripProto : Str → Str} {root : EchoRoot} {files : List FileDescriptor}
  {before : List Declaration}

/-- `AddEnum` makes an enum of a declaration that is new. -/
theorem addEnum_ends {d : EnumDescriptor} (h : root.Holds stripProto files before)
    (hfresh : Fresh (before ++ [.enum d])) :
    Ends (addEnum d root)
      (fun p => root.Reads stripProto p.2 files (before ++ [.enum d]) (echoEnum d = p.1))
      ((Declaration.enum d).failure before) := by
  have hnew := h.no_enum d.address fun d' hd' => hfresh.ne hd' (List.mem_singleton_self _)
  unfold addEnum
  rw [if_neg (Bool.eq_false_iff.mp hnew)]
  exact .ok ⟨.withEnum root _, h.withEnum d, rfl⟩

/-- A loop goes through the declarations of its list, and makes an object of each. -/
theorem addAll_ends {δ α : Type} {add : δ → Reading α} {declare : δ → Declaration}
    (made : EchoRoot → δ → α → Prop)
    (hmono : ∀ root root' : EchoRoot, root.Extends root' → ∀ d a, made root d a → made root' d a)
    (hadd : ∀ d (root : EchoRoot) before, root.Holds stripProto files before →
      Fresh (before ++ [declare d]) →
      Ends (add d root)
        (fun p => root.Reads stripProto p.2 files (before ++ [declare d]) (made p.2 d p.1))
        ((declare d).failure before)) :
    ∀ {ds : List δ} {root : EchoRoot} {before : List Declaration},
      root.Holds stripProto files before → Fresh (before ++ ds.map declare) →
      Ends (addAll add ds root)
        (fun p => root.Reads stripProto p.2 files (before ++ ds.map declare)
          (List.Forall₂ (made p.2) ds p.1))
        (firstFailure Declaration.failure before (ds.map declare))
  | [], root, _, h, _ => .ok ⟨.refl root, by simpa using h, .nil⟩
  | d :: ds, _, before, h, hfresh => by
    rw [List.map_cons, List.append_cons] at hfresh ⊢
    refine (hadd d _ before h hfresh.left).bind fun ⟨object, root'⟩ h' => ?_
    refine (addAll_ends made hmono hadd h'.holds hfresh).andThen fun ⟨objects, root''⟩ h'' =>
      ⟨_, rfl, h''.after h'.grows ?_⟩
    exact .cons (hmono _ _ h''.grows d object h'.made)

/-- All the enums of a file or a message are made, in their order. -/
theorem addEnums_ends {ds : List EnumDescriptor} (h : root.Holds stripProto files before)
    (hfresh : Fresh (before ++ ds.map .enum)) :
    Ends (addAll addEnum ds root)
      (fun p => root.Reads stripProto p.2 files (before ++ ds.map .enum) (p.1 = ds.map echoEnum))
      (firstFailure Declaration.failure before (ds.map .enum)) := by
  have hall := addAll_ends (fun _ d e => echoEnum d = e) (fun _ _ _ _ _ => id)
    (fun _ _ _ => addEnum_ends) h hfresh
  refine hall.imp fun p hp => hp.after (.refl root) fun hmade => ?_
  exact ((map_eq_map_of_forall₂ (g := id) hmade).trans (List.map_id _)).symm

mutual

/-- `AddMessage` makes what is nested in a message, and the message behind it. -/
theorem addMessage_ends : ∀ {d : Descriptor} {root : EchoRoot} {before : List Declaration},
    root.Holds stripProto files before → Fresh (before ++ d.declarations) →
      Ends (addMessage d root)
        (fun p => root.Reads stripProto p.2 files (before ++ d.declarations) (p.2.MessageOf d p.1))
        (firstFailure Declaration.failure before d.declarations)
  | ⟨address, name, enumTypes, nestedTypes, fields⟩, root, before, h, hfresh => by
    have hself : Declaration.message ⟨address, name, enumTypes, nestedTypes, fields⟩ ∈
        Descriptor.declarations ⟨address, name, enumTypes, nestedTypes, fields⟩ := by
      simp [Descriptor.declarations]
    have hnew := h.no_message address fun d' hd' => hfresh.ne hd' hself
    rw [Descriptor.declarations, ← List.append_assoc, ← List.append_assoc] at hfresh ⊢
    rw [firstFailure_append, firstFailure_append, firstFailure_singleton, Option.or_assoc,
      ← List.append_assoc]
    unfold addMessage
    rw [if_neg (Bool.eq_false_iff.mp hnew)]
    refine (addEnums_ends h hfresh.left.left).bind fun ⟨enums, root₁⟩ h₁ => ?_
    refine (addMessages_ends h₁.holds hfresh.left).bind fun ⟨nested, root₂⟩ h₂ => ?_
    refine (Ends.mapM fun d _ => (h₂.holds.generateField d).self).andThen
      fun echoFields hfields => ⟨_, rfl, ?_⟩
    have hmade : root₂.MadeMessage (.mk ⟨address, name, enumTypes, nestedTypes, fields⟩ enums
        nested echoFields) := ⟨h₁.made, h₂.made, hfields⟩
    exact ⟨(h₁.grows.trans h₂.grows).trans (.withMessage root₂ _), h₂.holds.withMessage hmade,
      List.mem_append_right _ (List.mem_singleton_self _), rfl⟩

/-- All the messages of a file or a message are made, in their order. -/
theorem addMessages_ends : ∀ {ds : List Descriptor} {root : EchoRoot} {before : List Declaration},
    root.Holds stripProto files before → Fresh (before ++ messageDeclarations ds) →
      Ends (addMessages ds root)
        (fun p => root.Reads stripProto p.2 files (before ++ messageDeclarations ds)
          (List.Forall₂ p.2.MessageOf ds p.1))
        (firstFailure Declaration.failure before (messageDeclarations ds))
  | [], root, _, h, _ => .ok ⟨.refl root, by simpa [messageDeclarations] using h, .nil⟩
  | d :: ds, _, before, h, hfresh => by
    rw [messageDeclarations, ← List.append_assoc] at hfresh ⊢
    rw [firstFailure_append]
    refine (addMessage_ends h hfresh.left).bind fun ⟨message, root'⟩ h' => ?_
    refine (addMessages_ends h'.holds hfresh).andThen fun ⟨messages, root''⟩ h'' =>
      ⟨_, rfl, h''.after h'.grows ?_⟩
    exact .cons (h'.made.mono h''.grows)

end

/-! ### Services -/

/-- The type of a method is `void`, or a message that is declared. -/
theorem methodType_ends (h : root.Holds stripProto files before) (type : TypeRef) :
    Ends (root.methodType type) (fun message => root.methodType type = .ok message)
      (type.methodFailure before) := by
  refine Ends.self (P := fun _ => True) ?_
  unfold methodType TypeRef.methodFailure
  by_cases hvoid : type.fullName = voidName
  · rw [if_neg (not_not.mpr hvoid), if_pos hvoid]
    exact .ok trivial
  · rw [if_pos hvoid, if_neg hvoid]
    exact (h.getMessage type).andThen fun message _ => ⟨_, rfl, trivial⟩

/-- What a method is known by in the loop. -/
def EchoMethod.key (method : EchoMethod) : Str × UInt32 := (method.name, method.methodId)

def MethodDescriptor.key (d : MethodDescriptor) : Str × UInt32 := (d.name, d.methodId)

/-- A text is put on either step of two. -/
theorem mapError_bind {α β : Type} {g : GeneratorError → GeneratorError}
    (x : Except GeneratorError α) (f : α → Except GeneratorError β) :
    (x >>= f).mapError g = x.mapError g >>= fun a => (f a).mapError g := by
  cases x <;> rfl

/-- What is thrown for a type says nothing of the service. -/
theorem methodFailure_rethrow (service : Str) (type : TypeRef) :
    (type.methodFailure before).map (GeneratorError.rethrow service) =
      type.methodFailure before := by
  unfold TypeRef.methodFailure TypeRef.messageFailure
  split
  · rfl
  · split <;> rfl

/-- A method is told from others by what its descriptor says. -/
theorem EchoRoot.MadeMethod.key_eq {d : MethodDescriptor} {method : EchoMethod}
    (h : root.MadeMethod d method) : method.key = d.key :=
  Prod.ext h.name h.methodId

/-- A method without a number is reported by its service's name. -/
theorem echoMethod_ends (h : root.Holds stripProto files before) (service : Str)
    (d : MethodDescriptor) :
    Ends ((root.echoMethod d).mapError (GeneratorError.rethrow service))
      (root.MadeMethod d)
      (if d.methodId = 0 then some (.unspecifiedMethodId service d.name)
        else (d.inputType.methodFailure before).or (d.outputType.methodFailure before)) := by
  unfold echoMethod
  split
  case isTrue => rfl
  case isFalse =>
    rw [mapError_bind, ← methodFailure_rethrow service d.inputType,
      ← methodFailure_rethrow service d.outputType]
    refine (methodType_ends h d.inputType).mapError.bind fun parameter hparameter => ?_
    rw [mapError_bind]
    exact (methodType_ends h d.outputType).mapError.andThen fun result hresult =>
      ⟨_, rfl, rfl, rfl, hparameter, hresult, rfl⟩

/-- The method that has a number is found by its descriptor. -/
theorem find?_method {methods : List EchoMethod} {earlier : List MethodDescriptor}
    (hmade : List.Forall₂ root.MadeMethod earlier methods) (methodId : UInt32) :
    (methods.find? fun previous => previous.methodId = methodId).map EchoMethod.key =
      (earlier.find? fun previous => previous.methodId = methodId).map MethodDescriptor.key := by
  have hkeys : methods.map EchoMethod.key = earlier.map MethodDescriptor.key :=
    (map_eq_map_of_forall₂ (hmade.imp fun _ _ hmethod => hmethod.key_eq.symm)).symm
  have hfind := congrArg (List.find? fun key => decide (key.2 = methodId)) hkeys
  rwa [List.find?_map, List.find?_map] at hfind

/-- The methods of a service are made one after the other, each with a number of its own. -/
theorem echoMethods_ends (h : root.Holds stripProto files before) (service : Str) :
    ∀ (ds earlier : List MethodDescriptor) {methods : List EchoMethod},
      List.Forall₂ root.MadeMethod earlier methods →
      Ends ((root.echoMethods service methods ds).mapError (GeneratorError.rethrow service))
        (List.Forall₂ root.MadeMethod (earlier ++ ds))
        (firstFailure (fun methods method => method.failure before service methods) earlier ds)
  | [], earlier, methods, hmade => .ok (by rwa [List.append_nil])
  | d :: ds, earlier, methods, hmade => by
    have hfailure : d.failure before service earlier =
        (if d.methodId = 0 then some (.unspecifiedMethodId service d.name)
          else (d.inputType.methodFailure before).or (d.outputType.methodFailure before)).or
        ((earlier.find? fun previous => previous.methodId = d.methodId).map fun previous =>
          .duplicateMethodId service previous.name d.name d.methodId) := by
      unfold MethodDescriptor.failure
      split <;> simp
    rw [firstFailure, hfailure, Option.or_assoc, echoMethods, mapError_bind]
    refine (echoMethod_ends h service d).bind fun method hmethod => ?_
    have hfind := find?_method hmade d.methodId
    rw [hmethod.methodId]
    cases hprevious : methods.find? fun previous => previous.methodId = d.methodId with
    | none =>
      rw [hprevious, Option.map_none, eq_comm, Option.map_eq_none_iff] at hfind
      rw [hfind]
      have hrest := echoMethods_ends h service ds (earlier ++ [d])
        (List.rel_append hmade (.cons hmethod .nil))
      rw [List.append_assoc, List.singleton_append] at hrest
      exact hrest
    | some previous =>
      rw [hprevious, Option.map_some, eq_comm, Option.map_eq_some_iff] at hfind
      obtain ⟨previous', hprevious', hkey⟩ := hfind
      obtain ⟨hname', -⟩ := Prod.mk.inj hkey
      rw [hprevious', Option.map_some, Option.some_or, hmethod.name, hname']
      rfl

/-- A service is made of a descriptor with a UUID whose methods can be made. -/
theorem echoService_ends (h : root.Holds stripProto files before) (d : ServiceDescriptor) :
    Ends (root.echoService d)
      (fun service => root.MadeService service ∧ service.descriptor = d) (d.failure before) := by
  unfold echoService ServiceDescriptor.failure
  cases huuid : uuidStringToBytes d.uuid with
  | none => rfl
  | some uuid =>
    exact (echoMethods_ends h d.name d.methods [] .nil).andThen fun methods hmethods =>
      ⟨_, rfl, ⟨huuid, rfl, rfl, hmethods⟩, rfl⟩

/-- `AddService` makes a service of a declaration that is new. -/
theorem addService_ends {d : ServiceDescriptor} (h : root.Holds stripProto files before)
    (hfresh : Fresh (before ++ [.service d])) :
    Ends (addService d root)
      (fun p => root.Reads stripProto p.2 files (before ++ [.service d]) (p.2.ServiceOf d p.1))
      ((Declaration.service d).failure before) := by
  have hnew := h.no_service d.address fun d' hd' => hfresh.ne hd' (List.mem_singleton_self _)
  unfold addService
  rw [if_neg (Bool.eq_false_iff.mp hnew)]
  refine (echoService_ends h d).andThen fun service ⟨hmade, hservice⟩ => ⟨_, rfl, ?_⟩
  subst hservice
  exact ⟨.withService root service, h.withService hmade,
    List.mem_append_right _ (List.mem_singleton_self _), rfl⟩

/-! ### Files -/

mutual

/-- A file behind others. -/
theorem getFile_ends : ∀ {file : FileDescriptor} {root : EchoRoot} {files : List FileDescriptor}
    {before : List Declaration}, root.Holds stripProto files before →
      Fresh (before ++ (file.reads stripProto (files.map fun g => stripProto g.name)).flatMap
        FileDescriptor.declarations) →
      Ends (getFile stripProto file root)
        (fun p => root.Reads stripProto p.2
          (files ++ file.reads stripProto (files.map fun g => stripProto g.name))
          (before ++ (file.reads stripProto (files.map fun g => stripProto g.name)).flatMap
            FileDescriptor.declarations)
          (p.2.FileOf stripProto file p.1))
        (firstFailure Declaration.failure before
          ((file.reads stripProto (files.map fun g => stripProto g.name)).flatMap
            FileDescriptor.declarations))
  | ⟨name, dependencies, enumTypes, messageTypes, services⟩, root, files, before, h, hfresh => by
    rw [FileDescriptor.reads] at hfresh ⊢
    have hfound : (root.files.find? fun file => file.name = stripProto name).isSome ↔
        ((files.map fun g => stripProto g.name).any fun read => read = stripProto name) = true := by
      rw [← h.fileNames, List.find?_isSome, List.any_map, List.any_eq_true]
      rfl
    unfold getFile
    cases hfile : root.files.find? fun file => file.name = stripProto name with
    | some file =>
      rw [hfile] at hfound
      rw [if_pos (hfound.mp rfl)]
      exact .ok ⟨.refl root, by simpa using h, List.mem_of_find?_eq_some hfile,
        by simpa using List.find?_some hfile⟩
    | none =>
      rw [hfile] at hfound
      have hnew : ¬ ((files.map fun g => stripProto g.name).any fun read =>
          read = stripProto name) = true := fun hany => by cases hfound.mpr hany
      rw [if_neg hnew, List.flatMap_append, List.flatMap_singleton,
        FileDescriptor.declarations] at hfresh ⊢
      simp only [← List.append_assoc] at hfresh ⊢
      rw [firstFailure_append, firstFailure_append, firstFailure_append, Option.or_assoc,
        Option.or_assoc]
      simp only [← List.append_assoc]
      refine (getDependencies_ends h hfresh.left.left.left).bind fun ⟨imports, root₁⟩ h₁ => ?_
      refine (addEnums_ends h₁.holds hfresh.left.left).bind fun ⟨enums, root₂⟩ h₂ => ?_
      refine (addMessages_ends h₂.holds hfresh.left).bind fun ⟨messages, root₃⟩ h₃ => ?_
      refine (addAll_ends ServiceOf (fun _ _ hextends _ _ => ServiceOf.mono hextends)
        (fun _ _ _ => addService_ends) h₃.holds hfresh).andThen fun ⟨echoServices, root₄⟩ h₄ =>
          ⟨_, rfl, ?_⟩
      have hmade : root₄.MadeFile stripProto
          ⟨name, dependencies, enumTypes, messageTypes, services⟩
          ⟨stripProto name, enums, messages, echoServices, imports⟩ := {
        name := rfl
        enums := h₂.made
        messages := h₃.made.imp fun _ _ => MessageOf.mono h₄.grows
        services := h₄.made
        dependencies := h₁.made.imp fun _ _ =>
          FileOf.mono ((h₂.grows.trans h₃.grows).trans h₄.grows) }
      refine ⟨?grows, ?holds, List.mem_append_right _ (List.mem_singleton_self _), rfl⟩
      case grows =>
        exact (((h₁.grows.trans h₂.grows).trans h₃.grows).trans h₄.grows).trans
          (.withFile root₄ _)
      case holds => exact h₄.holds.withFile hmade

/-- The imports of a file are made before it, those that are not there yet. -/
theorem getDependencies_ends : ∀ {ds : List FileDescriptor} {root : EchoRoot}
    {files : List FileDescriptor} {before : List Declaration}, root.Holds stripProto files before →
      Fresh (before ++ (importReads stripProto ds (files.map fun g => stripProto g.name)).flatMap
        FileDescriptor.declarations) →
      Ends (getDependencies stripProto ds root)
        (fun p => root.Reads stripProto p.2
          (files ++ importReads stripProto ds (files.map fun g => stripProto g.name))
          (before ++ (importReads stripProto ds (files.map fun g => stripProto g.name)).flatMap
            FileDescriptor.declarations)
          (List.Forall₂ (p.2.FileOf stripProto)
            (ds.filter fun dependency => dependency.name ≠ voidFile) p.1))
        (firstFailure Declaration.failure before
          ((importReads stripProto ds (files.map fun g => stripProto g.name)).flatMap
            FileDescriptor.declarations))
  | [], root, _, _, h, _ => .ok ⟨.refl root, by simpa [importReads] using h, .nil⟩
  | d :: ds, root, files, before, h, hfresh => by
    rw [importReads] at hfresh ⊢
    unfold getDependencies
    by_cases hvoid : d.name ≠ voidFile
    · rw [if_pos hvoid] at hfresh ⊢
      have himports : (d :: ds).filter (fun dependency => dependency.name ≠ voidFile) =
          d :: ds.filter fun dependency => dependency.name ≠ voidFile :=
        List.filter_cons_of_pos (decide_eq_true hvoid)
      rw [if_pos hvoid, himports]
      rw [← List.map_append, List.flatMap_append, ← List.append_assoc] at hfresh ⊢
      rw [← List.append_assoc, firstFailure_append]
      refine (getFile_ends h hfresh.left).bind fun ⟨file, root'⟩ h' => ?_
      refine (getDependencies_ends h'.holds hfresh).andThen fun ⟨imports, root''⟩ h'' =>
        ⟨_, rfl, h''.after h'.grows ?_⟩
      exact .cons (h'.made.mono h''.grows)
    · rw [if_neg hvoid] at hfresh ⊢
      have himports : (d :: ds).filter (fun dependency => dependency.name ≠ voidFile) =
          ds.filter fun dependency => dependency.name ≠ voidFile :=
        List.filter_cons_of_neg fun h => hvoid (of_decide_eq_true h)
      rw [if_neg hvoid, himports]
      exact getDependencies_ends h hfresh

end

end Add

/-! ## The generator -/

/-- All declarations pass, each behind those before it. -/
def AllPass (ds : List Declaration) : Prop :=
  ∀ before d after, ds = before ++ d :: after → d.Passes before

theorem allPass_nil : AllPass [] := by
  intro before d after hsplit
  cases before <;> cases hsplit

/-- No declaration fails exactly if all pass. -/
theorem firstFailure_eq_none_iff_allPass {ds : List Declaration} :
    firstFailure Declaration.failure [] ds = none ↔ AllPass ds := by
  simp only [firstFailure_eq_none_iff, List.nil_append, Declaration.failure_eq_none_iff, AllPass]

/-- `EchoRoot` has made every declaration, or reports the first that does not pass. -/
theorem echoRoot_ends (stripProto : Str → Str) {file : FileDescriptor} (h : file.Pooled) :
    Ends (echoRoot stripProto file)
      (fun root => root.Holds stripProto (file.reads stripProto []) (file.order stripProto))
      (firstFailure Declaration.failure [] (file.order stripProto)) := by
  have hstart : EchoRoot.Holds stripProto {} [] [] := ⟨.nil, rfl, rfl, rfl, nofun, nofun⟩
  exact (getFile_ends hstart h.order_fresh).andThen fun ⟨_, root⟩ hroot =>
    ⟨root, rfl, hroot.holds⟩

/-- A message of the root has a field of another. -/
def EchoRoot.Contains (root : EchoRoot) (message inner : EchoMessage) : Prop :=
  message ∈ root.messages ∧ inner ∈ root.messages ∧
    ∃ field ∈ message.descriptor.fields, ∃ type, field.type = .message type ∧
      type.address = inner.descriptor.address

section Contains

variable {stripProto : Str → Str} {root : EchoRoot} {files : List FileDescriptor}
  {ds : List Declaration}

/-- What is before a message is made of what is before its declaration. -/
theorem EchoRoot.Holds.split (h : root.Holds stripProto files ds) {earlier later : List EchoMessage}
    {message : EchoMessage} (hsplit : root.messages = earlier ++ message :: later) :
    ∃ before after, ds = before ++ .message message.descriptor :: after ∧
      earlier.map EchoMessage.descriptor = before.filterMap Declaration.message? := by
  have hmessages := h.messages
  rw [hsplit, List.map_append, List.map_cons, eq_comm, List.filterMap_eq_append_iff] at hmessages
  obtain ⟨front, rest, rfl, hfront, hrest⟩ := hmessages
  obtain ⟨others, d, after, rfl, hothers, hd, -⟩ := List.filterMap_eq_cons_iff.mp hrest
  cases d with
  | enum d | service d => cases hd
  | message d =>
    obtain rfl := Option.some.inj hd
    refine ⟨front ++ others, after, by simp, ?_⟩
    rw [List.filterMap_append, hfront, List.filterMap_eq_nil_iff.mpr hothers, List.append_nil]

/-- The fields of a message are of those made before it. -/
theorem EchoRoot.Holds.declared (h : root.Holds stripProto files ds) (hpass : AllPass ds)
    {earlier later : List EchoMessage} {message : EchoMessage}
    (hsplit : root.messages = earlier ++ message :: later)
    {field : FieldDescriptor} (hfield : field ∈ message.descriptor.fields) {type : TypeRef}
    (htype : field.type = .message type) :
    ∃ inner ∈ earlier, inner.descriptor.address = type.address := by
  obtain ⟨before, after, hds, hearlier⟩ := h.split hsplit
  have hpasses : field.Passes before := hpass before _ after hds field hfield
  rw [FieldDescriptor.Passes, htype] at hpasses
  obtain ⟨d, hd, haddress⟩ := hpasses
  rw [← Declaration.mem_message?, ← hearlier] at hd
  obtain ⟨inner, hinner, rfl⟩ := List.mem_map.mp hd
  exact ⟨inner, hinner, haddress⟩

/-- Where the messages are at addresses of their own, one that contains another is behind it. -/
theorem EchoRoot.Holds.contains_lt (h : root.Holds stripProto files ds) (hpass : AllPass ds)
    (hfresh : Fresh ds) {message inner : EchoMessage}
    (hcontains : root.Contains message inner) :
    (root.messages.map fun m => m.descriptor.address).idxOf inner.descriptor.address <
      (root.messages.map fun m => m.descriptor.address).idxOf message.descriptor.address := by
  obtain ⟨hmessage, -, field, hfield, type, htype, haddress⟩ := hcontains
  obtain ⟨earlier, later, hsplit⟩ := List.append_of_mem hmessage
  obtain ⟨before, after, hds, hearlier⟩ := h.split hsplit
  obtain ⟨found, hfound, hfoundAt⟩ := h.declared hpass hsplit hfield htype
  have hinner : inner.descriptor.address ∈ earlier.map fun m => m.descriptor.address := by
    rw [← haddress, ← hfoundAt]
    exact List.mem_map_of_mem hfound
  have hself : message.descriptor.address ∉ earlier.map fun m => m.descriptor.address := by
    intro hmem
    obtain ⟨other, hother, heq⟩ := List.mem_map.mp hmem
    have hdeclared := List.mem_map_of_mem (f := EchoMessage.descriptor) hother
    rw [hearlier, Declaration.mem_message?] at hdeclared
    rw [hds] at hfresh
    exact hfresh.ne hdeclared List.mem_cons_self heq
  rw [hsplit, List.map_append, List.idxOf_append_of_mem hinner, List.idxOf_append_of_notMem hself]
  exact (List.idxOf_lt_length_of_mem hinner).trans_le (Nat.le_add_right _ _)

/-- So is one that contains another through others. -/
theorem EchoRoot.Holds.transGen_lt (h : root.Holds stripProto files ds) (hpass : AllPass ds)
    (hfresh : Fresh ds) {message inner : EchoMessage}
    (hcontains : Relation.TransGen root.Contains message inner) :
    (root.messages.map fun m => m.descriptor.address).idxOf inner.descriptor.address <
      (root.messages.map fun m => m.descriptor.address).idxOf message.descriptor.address := by
  induction hcontains with
  | single hcontains => exact h.contains_lt hpass hfresh hcontains
  | tail _ hcontains ih => exact (h.contains_lt hpass hfresh hcontains).trans ih

end Contains

/-- No message of an accepted file contains itself, through whichever others. -/
theorem accepted_acyclic (stripProto : Str → Str) {file : FileDescriptor} (hfile : file.Pooled)
    {root : EchoRoot} (h : echoRoot stripProto file = .ok root) (message : EchoMessage) :
    ¬ Relation.TransGen root.Contains message message := by
  have hends := echoRoot_ends stripProto hfile
  have hpass := firstFailure_eq_none_iff_allPass.mp (hends.ok_iff.mp ⟨root, h⟩)
  intro hcycle
  exact Nat.lt_irrefl _ ((hends.of_ok h).transGen_lt hpass hfile.order_fresh hcycle)

namespace Sample

/-- protobuf's `StripProto`: a name without `.protodevel` or `.proto`. -/
def stripProto (name : Str) : Str :=
  let protodevel : Str := [46, 112, 114, 111, 116, 111, 100, 101, 118, 101, 108]
  let proto : Str := [46, 112, 114, 111, 116, 111]
  if protodevel.isSuffixOf name then name.take (name.length - protodevel.length)
  else if proto.isSuffixOf name then name.take (name.length - proto.length)
  else name

/-- A singular field. -/
def field (name : Str) (number : Int32) (type : FieldType) : FieldDescriptor where
  name
  number
  type
  hasProto3Optional := false
  isRepeated := false
  stringSize := 0
  bytesSize := 0
  arraySize := 0

/-- `serialrpc.proto`, which declares `void`. -/
def options : FileDescriptor where
  name := voidFile
  dependencies := []
  enumTypes := []
  messageTypes := [⟨0, voidName, [], [], []⟩]
  services := []

/-- `a.proto`, with `message A { int32 v = 1; }`. -/
def base : FileDescriptor where
  name := [97, 46, 112, 114, 111, 116, 111]
  dependencies := []
  enumTypes := []
  messageTypes := [⟨1, [65], [], [], [field [118] 1 .int32]⟩]
  services := []

/-- `b.proto`, with `message B { A a = 1; }`. -/
def middle : FileDescriptor where
  name := [98, 46, 112, 114, 111, 116, 111]
  dependencies := [base]
  enumTypes := []
  messageTypes := [⟨2, [66], [], [], [field [97] 1 (.message ⟨1, [65], [65]⟩)]⟩]
  services := []

/-- `c.proto`, with `rpc g(B) returns (void)` in a service, imports both. -/
def diamond : FileDescriptor where
  name := [99, 46, 112, 114, 111, 116, 111]
  dependencies := [options, base, middle]
  enumTypes := []
  messageTypes := []
  services := [⟨3, [83], dashed (List.replicate 8 48) (List.replicate 4 48) (List.replicate 4 48)
    (List.replicate 4 48) (List.replicate 12 48), 1, 0,
    [⟨[103], 1, ⟨2, [66], [66]⟩, ⟨0, voidName, voidName⟩, false⟩]⟩]

/-- `n.proto`, with `message N { N next = 1; }`. -/
def recursive : FileDescriptor where
  name := [110, 46, 112, 114, 111, 116, 111]
  dependencies := []
  enumTypes := []
  messageTypes := [⟨0, [78], [], [], [field [110] 1 (.message ⟨0, [78], [78]⟩)]⟩]
  services := []

/-- The file that declares what is at an address. -/
def owner : Nat → FileDescriptor
  | 0 => options
  | 1 => base
  | 2 => middle
  | _ => diamond

theorem diamond_pooled : diamond.Pooled := by
  have hfiles : diamond.files = [options, base, base, middle, diamond] := rfl
  have howner : ∀ g ∈ diamond.files, Fresh g.declarations ∧
      ∀ d ∈ g.declarations, owner d.address = g := by
    rw [hfiles]
    intro g hg
    simp only [List.mem_cons, List.not_mem_nil, or_false] at hg
    rcases hg with rfl | rfl | rfl | rfl | rfl <;>
      exact ⟨List.nodup_singleton _, fun d hd => by rw [List.mem_singleton.mp hd]; rfl⟩
  refine ⟨fun g hg => (howner g hg).1, fun g hg g' hg' d hd d' hd' haddress => ?_⟩
  rw [← (howner g hg).2 d hd, haddress, (howner g' hg').2 d' hd']

theorem recursive_pooled : recursive.Pooled := by
  have hfiles : recursive.files = [recursive] := rfl
  refine ⟨fun g hg => ?_, fun g hg g' hg' _ _ _ _ _ => ?_⟩
  · rw [hfiles] at hg
    rw [List.mem_singleton.mp hg]
    exact List.nodup_singleton _
  · rw [hfiles] at hg hg'
    rw [List.mem_singleton.mp hg, List.mem_singleton.mp hg']

end Sample

/-- Nor does a message of the files above. -/
theorem accepted_acyclic_diamond : ∃ root,
    echoRoot Sample.stripProto Sample.diamond = .ok root ∧ root.messages.length = 2 ∧
      ∀ message, ¬ Relation.TransGen root.Contains message message :=
  ⟨_, rfl, rfl, accepted_acyclic Sample.stripProto Sample.diamond_pooled rfl⟩

end SerialRpc.Objects
