import ApiGateway.Config.Basic

/-! Why a pair of TLS files cannot be used. -/

namespace ApiGateway

inductive TlsFault where
  | certificateMissing (path : String)
  | keyMissing (path : String)
  | unusable
deriving DecidableEq

def TlsFault.message : TlsFault → String
  | .certificateMissing path => "certificate file not found: " ++ path
  | .keyMissing path => "private key file not found: " ++ path
  | .unusable => "no usable certificate and key"

/-- The fault of a pair of files of which some exist. The certificate is looked for first; no
content is accepted here, as only a TLS engine can. -/
def TlsFiles.fault (files : TlsFiles) (isThere : String → Bool) : TlsFault :=
  if !isThere files.cert then .certificateMissing files.cert
  else if !isThere files.key then .keyMissing files.key
  else .unusable

end ApiGateway
