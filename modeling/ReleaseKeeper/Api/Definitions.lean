import ReleaseKeeper.Api.Collection
import ReleaseKeeper.Definition.Basic
import ReleaseKeeper.Typed.Shape
/-!
# Definitions behind an API server

What a server answers with has to have the form of a definition, as k8s-openapi has it. Schemas hold
schemas; their shape is unfolded as deep as it is needed. The definition of instances is applied at
every start (`ensure_crd_installed`), so a server always has the one of the running version.
-/
namespace ReleaseKeeper.Definition

open Typed

mutual

def depth : Json → Nat
  | .arr items => depthItems items + 1
  | .obj members => depthMembers members + 1
  | _ => 0
termination_by structural x => x

def depthItems : List Json → Nat
  | [] => 0
  | x :: xs => max (depth x) (depthItems xs)
termination_by structural xs => xs

def depthMembers : List (String × Json) → Nat
  | [] => 0
  | (_, x) :: xs => max (depth x) (depthMembers xs)
termination_by structural xs => xs

end

def ruleShape : Shape := .record "ValidationRule" [
  ("fieldPath", .text), ("message", .text), ("messageExpression", .text),
  ("optionalOldSelf", .bool), ("reason", .text), ("rule", .text)]

/-- `JSONSchemaProps`, whose inner schemas have some shape. -/
def schemaOf (inner : Shape) : Shape := .record "JSONSchemaProps" [
  ("$ref", .text), ("$schema", .text), ("additionalItems", .either .bool inner),
  ("additionalProperties", .either .bool inner), ("allOf", .list inner), ("anyOf", .list inner),
  ("default", .any), ("definitions", .dict inner),
  ("dependencies", .dict (.either (.list .text) inner)), ("description", .text),
  ("enum", .list .any), ("example", .any), ("exclusiveMaximum", .bool), ("exclusiveMinimum", .bool),
  ("externalDocs", .record "ExternalDocumentation" [("description", .text), ("url", .text)]),
  ("format", .text), ("id", .text), ("items", .either (.list inner) inner), ("maxItems", .int64),
  ("maxLength", .int64), ("maxProperties", .int64), ("maximum", .number), ("minItems", .int64),
  ("minLength", .int64), ("minProperties", .int64), ("minimum", .number), ("multipleOf", .number),
  ("not", inner), ("nullable", .bool), ("oneOf", .list inner), ("pattern", .text),
  ("patternProperties", .dict inner), ("properties", .dict inner), ("required", .list .text),
  ("title", .text), ("type", .text), ("uniqueItems", .bool),
  ("x-kubernetes-embedded-resource", .bool), ("x-kubernetes-int-or-string", .bool),
  ("x-kubernetes-list-map-keys", .list .text), ("x-kubernetes-list-type", .text),
  ("x-kubernetes-map-type", .text), ("x-kubernetes-preserve-unknown-fields", .bool),
  ("x-kubernetes-validations", .list ruleShape)]

def schemaShape : Nat → Shape
  | 0 => .record "JSONSchemaProps" []
  | n + 1 => schemaOf (schemaShape n)

/-- How objects of one version become objects of another. -/
def conversionShape : Shape := .record "CustomResourceConversion" [
  ("strategy", .text),
  ("webhook", .record "WebhookConversion" [
    ("clientConfig", .record "WebhookClientConfig" [
      ("caBundle", .text),
      ("service", .record "ServiceReference" [
        ("name", .text), ("namespace", .text), ("path", .text), ("port", .int32)]),
      ("url", .text)]),
    ("conversionReviewVersions", .list .text)])]

def namesShape : Shape := .record "CustomResourceDefinitionNames" [
  ("categories", .list .text), ("kind", .text), ("listKind", .text), ("plural", .text),
  ("shortNames", .list .text), ("singular", .text)]

def versionShape (schema : Shape) : Shape := .record "CustomResourceDefinitionVersion" [
  ("additionalPrinterColumns", .list (.record "CustomResourceColumnDefinition" [
    ("description", .text), ("format", .text), ("jsonPath", .text), ("name", .text),
    ("priority", .int32), ("type", .text)])),
  ("deprecated", .bool), ("deprecationWarning", .text), ("name", .text),
  ("schema", .record "CustomResourceValidation" [("openAPIV3Schema", schema)]),
  ("selectableFields", .list (.record "SelectableField" [("jsonPath", .text)])),
  ("served", .bool), ("storage", .bool),
  ("subresources", .record "CustomResourceSubresources" [
    ("scale", .record "CustomResourceSubresourceScale" [
      ("labelSelectorPath", .text), ("specReplicasPath", .text), ("statusReplicasPath", .text)]),
    ("status", .any)])]

def specShape (schema : Shape) : Shape := .record "CustomResourceDefinitionSpec" [
  ("conversion", conversionShape), ("group", .text), ("names", namesShape),
  ("preserveUnknownFields", .bool), ("scope", .text), ("versions", .list (versionShape schema))]

def statusShape : Shape := .record "CustomResourceDefinitionStatus" [
  ("acceptedNames", namesShape),
  ("conditions", .list (.record "CustomResourceDefinitionCondition" [
    ("lastTransitionTime", .timestamp), ("message", .text), ("reason", .text), ("status", .text),
    ("type", .text)])),
  ("storedVersions", .list .text)]

/-- `CustomResourceDefinition`, with a schema of some shape. -/
def shapeOf (schema : Shape) : Shape := .record "CustomResourceDefinition" [
  ("apiVersion", .exactly "apiextensions.k8s.io/v1"), ("kind", .exactly "CustomResourceDefinition"),
  ("metadata", .metadata), ("spec", specShape schema), ("status", statusShape)]

/-- Refuses what has not the form of a definition. -/
def check (x : Json) : Except Fault Unit := (shapeOf (schemaShape (depth x))).check x

end ReleaseKeeper.Definition

namespace ReleaseKeeper.Api.Definitions

def collection : Collection Unit where
  path := s!"/apis/{Definition.apiVersion}/customresourcedefinitions"
  read := Definition.check

/-- `ensure_crd_installed`. -/
def install : Exchange Unit := collection.apply Definition.name Definition.toJson

def failure (e : ServerError) : String := s!"failed to install {Definition.name} CRD: {e.message}"

end ReleaseKeeper.Api.Definitions
