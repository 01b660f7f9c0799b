import ProxyForge.Proofs.Compiler.Bytecode
import ProxyForge.Proofs.Compiler.Causes
import ProxyForge.Proofs.Compiler.ContractPaths
import ProxyForge.Proofs.Compiler.Diagnostics
import ProxyForge.Proofs.Compiler.Process
import ProxyForge.Proofs.Compiler.ReportedVersion
import ProxyForge.Proofs.Compiler.Request
import ProxyForge.Proofs.Compiler.UnknownFields
import ProxyForge.Proofs.Contract.Constructor
import ProxyForge.Proofs.Contract.Emission
import ProxyForge.Proofs.Contract.Fields
import ProxyForge.Proofs.Contract.Forwarding
import ProxyForge.Proofs.Contract.Nesting
import ProxyForge.Proofs.Contract.Runs
import ProxyForge.Proofs.Deployer.Complete
import ProxyForge.Proofs.Deployer.ExpectedVersion
import ProxyForge.Proofs.Deployer.OnHost
import ProxyForge.Proofs.Deployer.Stages
import ProxyForge.Proofs.Deployment
import ProxyForge.Proofs.Literal.Checksum
import ProxyForge.Proofs.Literal.Integer
import ProxyForge.Proofs.Literal.Spelling
import ProxyForge.Proofs.Payload
import ProxyForge.Proofs.Pragma.Behind
import ProxyForge.Proofs.Pragma.Line
import ProxyForge.Proofs.Pragma.Sources
import ProxyForge.Proofs.Settings
import ProxyForge.Proofs.Storage.Encodings
import ProxyForge.Proofs.Storage.Preimage
import ProxyForge.Proofs.Text.ByteOrder
