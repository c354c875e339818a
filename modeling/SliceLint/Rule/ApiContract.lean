import SliceLint.Rule.Basic
import SliceLint.Rule.FileKind
import SliceLint.Rule.TextEvidence

/-!
# Contracts of server interfaces

The module through which a feature talks to a server states the types or schemas of what it sends
and receives.
-/

namespace SliceLint.ApiContract

def info : RuleInfo where
  id := "enforce-api-contracts"
  description := "Require explicit TypeScript interfaces or schemas in API files"
  severity := .error
  messages := [
    ("missingContracts",
      [.text ("API file must contain TypeScript interfaces, type definitions, " ++
        "or schema imports for request/response contracts")])]
  severities := []

/-- The finding of a file without contracts. -/
def check (ctx : FileContext) : List Finding :=
  if FileKind.isApiModule ctx.relPath && (TextEvidence.contracts ctx.text).isEmpty then
    [⟨"missingContracts", .origin,
      "import type \x7b Request, Response \x7d from './types'", []⟩]
  else []

/-- Server interfaces without contracts are reported. -/
def rule : Rule := .ofNodes info ["program"] fun _ ctx => check ctx

end SliceLint.ApiContract
